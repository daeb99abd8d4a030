import Tssh.Framework.BigEndian
import Tssh.Framework.Chan
import Tssh.Framework.System
import Mathlib.Data.Finmap

/-! # Channels of a UDP Forwarder and Its Worker

    A `udpForwarder` (`tsshd/datagram.go`) gives every datagram that comes in to the channel
    whose id is its last eight bytes.  `addChannel`, `removeChannel` and `Close` hold
    `closeMutex`.  A worker goroutine looks channels up and closes them without the mutex: in its
    loop when an id comes from `closingCh`; after its loop, which ends with the datagram
    connection or with `Close`, in a second loop that empties `closingCh` until `Close` closes
    it; and at last in a `Range` over all channels that are left.

    Every atomic operation is one step here, and the channels are Go channels that panic.  Ids
    are registered once.

    An open channel is in the map and not yet visited by the `Range`, or the worker is about to
    close it (`Inv.waiting`); and the map leads the worker to no closed channel (`Inv.gone`).
    Registrations end before the `Range` starts, because only `Close` ends the second loop
    (`Inv.shut`).
-/

open LTS Go

namespace UdpForwarder

/-! ## Datagrams -/

def kUdpForwardChannelIdSize : Nat := 8

/-- `sendDatagram`: what it hands to the connection, unless it returns before.  The limit of the
    connection is a parameter. -/
def sendDatagram (closed : Bool) (maxDatagramSize : Nat) (id : UInt64) (buf : Bytes) :
    Option Bytes :=
  if closed then none
  else if buf.length > maxDatagramSize then none
  else some (buf ++ putUint64 id)

/-- `binary.BigEndian.Uint64(buf[len(buf)-kUdpForwardChannelIdSize:])`. -/
def channelId (buf : Bytes) : UInt64 :=
  uint64 (buf.drop (buf.length - kUdpForwardChannelIdSize))

/-- `buf[:len(buf)-kUdpForwardChannelIdSize]`. -/
def payload (buf : Bytes) : Bytes := buf.take (buf.length - kUdpForwardChannelIdSize)

theorem sendDatagram_parts {closed : Bool} {maxDatagramSize : Nat} {id : UInt64}
    {buf datagram : Bytes} (h : sendDatagram closed maxDatagramSize id buf = some datagram) :
    channelId datagram = id ∧ payload datagram = buf := by
  have hdatagram : datagram = buf ++ putUint64 id := by
    unfold sendDatagram at h
    split at h
    · cases h
    · split at h
      · cases h
      · cases h
        rfl
  have hlen : datagram.length - kUdpForwardChannelIdSize = buf.length := by
    rw [hdatagram, List.length_append, length_putUint64, kUdpForwardChannelIdSize]
    omega
  rw [channelId, payload, hlen, hdatagram]
  exact ⟨by rw [List.drop_left, uint64_putUint64], List.take_left⟩

/-! ## State -/

/-- Who holds `closeMutex`: `addChannel` before its `Store`, `removeChannel` before its send,
    `Close` before it closes `closingCh`. -/
inductive Holder where
  | idle
  | adding (id : UInt64)
  | removing (id : UInt64)
  | closing
  deriving DecidableEq, Repr

/-- The goroutine that receives datagrams.  `sending`: at its send to `incomingBufferChan`, which
    has no places; `ended`: that channel is closed. -/
inductive Receiver where
  | absent
  | receiving
  | sending (buf : Bytes)
  | ended
  deriving DecidableEq, Repr

/-- The two loops of the worker in which ids come from `closingCh`. -/
inductive Loop where
  | select
  | drain
  deriving DecidableEq, Repr

/-- The worker: at the head of a loop; before the `Load` for a datagram; before the send to the
    channel it found; before the `LoadAndDelete` for an id; before the `close` of the channel it
    found; in the `Range`; before a `close` there. -/
inductive Worker where
  | absent
  | head (loop : Loop)
  | incoming (buf : Bytes)
  | sending (buf : Bytes) (k : Nat)
  | removing (loop : Loop) (id : UInt64)
  | closing (loop : Loop) (k : Nat)
  | range
  | rangeClosing (k : Nat)
  | finished
  deriving DecidableEq, Repr

/-- The channel that the worker is about to close. -/
def Worker.target : Worker → Option Nat
  | .closing _ k => some k
  | .rangeClosing k => some k
  | _ => none

/-- The worker has left its two loops. -/
def Worker.swept : Worker → Bool
  | .range => true
  | .rangeClosing _ => true
  | .finished => true
  | _ => false

/-- A channel and the id under which it was registered.  As history: what its owner received,
    and the datagrams that were delivered with what was sent for each. -/
structure Entry where
  id : UInt64
  ch : Chan Bytes
  received : List Bytes
  delivered : List (Bytes × Bytes)
  deriving DecidableEq, Repr

/-- `make(chan []byte, 1024)`, registered under `id`. -/
def Entry.new (id : UInt64) : Entry where
  id := id
  ch := .make 1024
  received := []
  delivered := []

/-- `udpForwarder` with its goroutines.  Channels are numbered by registration; `visited` are the
    keys that the `Range` has visited.  A panic is recorded. -/
structure State where
  holder : Holder
  closed : Bool
  workerOnce : Bool
  closingCh : Option (Chan UInt64)
  receiver : Receiver
  worker : Worker
  channelMap : Finmap (fun _ : UInt64 => Nat)
  visited : List UInt64
  chans : List Entry
  panic : Option Panic

def start : State where
  holder := .idle
  closed := false
  workerOnce := false
  closingCh := none
  receiver := .absent
  worker := .absent
  channelMap := ∅
  visited := []
  chans := []
  panic := none

/-! ## Functions -/

/-- `f.workerOnce.Do(f.startWorker)`. -/
def startWorker (s : State) : State :=
  if s.workerOnce then s
  else
    { s with
      workerOnce := true
      closingCh := some (.make 10)
      receiver := .receiving
      worker := .head .select }

/-- `addChannel` up to its `Store`. -/
def addChannel (s : State) (id : UInt64) : State :=
  if s.closed then s else { startWorker s with holder := .adding id }

/-- The rest of `addChannel`. -/
def storeChannel (s : State) (id : UInt64) : State :=
  { s with
    channelMap := s.channelMap.insert id s.chans.length
    chans := s.chans ++ [.new id]
    holder := .idle }

/-- `removeChannel` up to its send. -/
def removeChannel (s : State) (id : UInt64) : State :=
  if s.closed then s else { startWorker s with holder := .removing id }

/-- `f.closingCh <- id`. -/
def sendClosing (s : State) (id : UInt64) : Option State :=
  match s.closingCh with
  | none => none
  | some c =>
    match c.send id with
    | none => none
    | some (.ok c) => some { s with closingCh := some c, holder := .idle }
    | some (.error p) => some { s with panic := some p }

/-- `Close` up to `CompareAndSwap`. -/
def close (s : State) : State :=
  if s.closed then s else { s with closed := true, holder := .closing }

/-- The rest of `Close`.  `cancel` makes `ReceiveDatagram` fail, which it may do at any time. -/
def closeClosingCh (s : State) : State :=
  match s.closingCh with
  | none => { s with holder := .idle }
  | some c =>
    match c.close with
    | .ok c => { s with closingCh := some c, holder := .idle }
    | .error p => { s with panic := some p }

/-- `ReceiveDatagram` returns a datagram or an error. -/
def receiveDatagram (s : State) : Option Bytes → State
  | none => { s with receiver := .ended }
  | some buf =>
    -- too short for an id: received again
    if buf.length < kUdpForwardChannelIdSize then s else { s with receiver := .sending buf }

/-- The worker takes the next id from `closingCh`, or leaves the loop. -/
def receiveClosing (s : State) (loop : Loop) : Option State :=
  match s.closingCh with
  | none => none
  | some c =>
    match c.recv with
    | none => none
    | some (some id, c) => some { s with closingCh := some c, worker := .removing loop id }
    | some (none, _) =>
      -- closed and empty: the first loop is followed by the second, that by the `Range`
      some { s with worker := match loop with
        | .select => .head .drain
        | .drain => .range }

/-- The worker takes a datagram from `incomingBufferChan`, or finds it closed. -/
def receiveIncoming (s : State) : Option State :=
  match s.receiver with
  | .sending buf => some { s with receiver := .receiving, worker := .incoming buf }
  -- the connection has ended; removals go on in the second loop
  | .ended => some { s with worker := .head .drain }
  | _ => none

/-- `select { case ch <- buf[:len(buf)-kUdpForwardChannelIdSize]: default: }`. -/
def sendIncoming (s : State) (buf : Bytes) (k : Nat) : Option State :=
  match s.chans[k]? with
  | none => none
  | some e =>
    match e.ch.trySend (payload buf) with
    | .error p => some { s with panic := some p }
    | .ok (ch, sent) =>
      -- a full channel loses the datagram
      let delivered := if sent then e.delivered ++ [(buf, payload buf)] else e.delivered
      some { s with
        chans := s.chans.set k { e with ch := ch, delivered := delivered }
        worker := .head .select }

/-- `LoadAndDelete` for an id from `closingCh`. -/
def loadAndDelete (s : State) (loop : Loop) (id : UInt64) : State :=
  match s.channelMap.lookup id with
  -- removed twice, or never registered
  | none => { s with worker := .head loop }
  | some k => { s with channelMap := s.channelMap.erase id, worker := .closing loop k }

/-- `closeChannel`, after which the worker goes on at `w`. -/
def closeChannel (s : State) (k : Nat) (w : Worker) : Option State :=
  match s.chans[k]? with
  | none => none
  | some e =>
    match e.ch.close with
    | .ok ch => some { s with chans := s.chans.set k { e with ch := ch }, worker := w }
    | .error p => some { s with panic := some p }

/-- The owner of a channel receives from it. -/
def receive (s : State) (k : Nat) : Option State :=
  match s.chans[k]? with
  | none => none
  | some e =>
    match e.ch.recv with
    | some (some buf, ch) =>
      some { s with chans := s.chans.set k { e with ch := ch, received := e.received ++ [buf] } }
    | some (none, _) => some s
    | none => none

/-! ## Steps -/

/-- The three functions with their second parts, `ReceiveDatagram`, the owners of the channels,
    and the worker.  Where the worker has a choice: which case of the `select`, which key of the
    `Range` is next, and that there is none. -/
inductive Label where
  | addChannel (id : UInt64)
  | storeChannel
  | removeChannel (id : UInt64)
  | sendClosing
  | close
  | closeClosingCh
  | receiveDatagram (result : Option Bytes)
  | receive (k : Nat)
  | work
  | workIncoming
  | visit (id : UInt64)
  | endRange
  deriving DecidableEq, Repr

/-- One operation of the worker. -/
def work (s : State) : Option State :=
  match s.worker with
  | .head loop => receiveClosing s loop
  | .incoming buf =>
    match s.channelMap.lookup (channelId buf) with
    | none => some { s with worker := .head .select }
    | some k => some { s with worker := .sending buf k }
  | .sending buf k => sendIncoming s buf k
  | .removing loop id => some (loadAndDelete s loop id)
  | .closing loop k => closeChannel s k (.head loop)
  | .rangeClosing k => closeChannel s k .range
  | _ => none

def visit (s : State) (id : UInt64) : Option State :=
  match s.channelMap.lookup id with
  | none => none
  | some k =>
    enabledIf (s.worker = .range ∧ id ∉ s.visited)
      { s with visited := id :: s.visited, worker := .rangeClosing k }

def next (s : State) : Label → Option State
  | .addChannel id =>
    enabledIf (s.holder = .idle ∧ id ∉ s.chans.map Entry.id) (addChannel s id)
  | .storeChannel =>
    match s.holder with
    | .adding id => some (storeChannel s id)
    | _ => none
  | .removeChannel id => enabledIf (s.holder = .idle) (removeChannel s id)
  | .sendClosing =>
    match s.holder with
    | .removing id => sendClosing s id
    | _ => none
  | .close => enabledIf (s.holder = .idle) (close s)
  | .closeClosingCh => enabledIf (s.holder = .closing) (closeClosingCh s)
  | .receiveDatagram result => enabledIf (s.receiver = .receiving) (receiveDatagram s result)
  | .receive k => receive s k
  | .work => work s
  | .workIncoming => if s.worker = .head .select then receiveIncoming s else none
  | .visit id => visit s id
  | .endRange =>
    -- no key is left to visit; the entries stay in the map
    enabledIf (s.worker = .range ∧ s.channelMap.keys ⊆ s.visited.toFinset)
      { s with worker := .finished }

/-- A forwarder under any calls, with every id registered at most once. -/
def forwarderRuns : System State Label := .ofStep start next

/-! ## The channels -/

/-- What the owner got and what still waits is what was delivered: for each datagram with the
    id of this channel its payload. -/
def Entry.Faithful (e : Entry) : Prop :=
  e.received ++ e.ch.queue = e.delivered.map Prod.snd ∧
    ∀ d ∈ e.delivered, d.2 = payload d.1 ∧ e.id = channelId d.1

/-- The channels against the worker, the map and the keys that the `Range` has visited. -/
structure Tracked (w : Worker) (m : Finmap (fun _ : UInt64 => Nat)) (visited : List UInt64)
    (chans : List Entry) : Prop where
  ids : (chans.map Entry.id).Nodup
  mapped : ∀ id k, m.lookup id = some k → ∃ e, chans[k]? = some e ∧ e.id = id
  waiting : ∀ k e, chans[k]? = some e → e.ch.closed = false →
    w.target = some k ∨ (m.lookup e.id = some k ∧ e.id ∉ visited)
  gone : ∀ k e, chans[k]? = some e → m.lookup e.id = some k →
    e.ch.closed = true ∨ w.target = some k → e.id ∈ visited
  target : ∀ k, w.target = some k → ∃ e, chans[k]? = some e ∧ e.ch.closed = false
  sending : ∀ buf k, w = .sending buf k →
    ∃ e, chans[k]? = some e ∧ e.ch.closed = false ∧ e.id = channelId buf
  unswept : w.swept = false → visited = []
  finished : w = .finished → ∀ id k, m.lookup id = some k → id ∈ visited
  faithful : ∀ e ∈ chans, e.Faithful

variable {chans : List Entry} {k : Nat} {e : Entry} {s : State}

theorem getElem?_set_cases {k j : Nat} {e x : Entry} (h : (chans.set k e)[j]? = some x) :
    (j = k ∧ x = e) ∨ (j ≠ k ∧ chans[j]? = some x) := by
  by_cases hj : j = k
  · subst hj
    have hlt := (List.getElem?_eq_some_iff.mp h).choose
    rw [List.length_set] at hlt
    rw [List.getElem?_set_self hlt, Option.some.injEq] at h
    exact .inl ⟨rfl, h.symm⟩
  · rw [List.getElem?_set_ne (fun heq => hj heq.symm)] at h
    exact .inr ⟨hj, h⟩

theorem getElem?_set_of_some {e x : Entry} (hk : chans[k]? = some x) :
    (chans.set k e)[k]? = some e :=
  List.getElem?_set_self (List.getElem?_eq_some_iff.mp hk).choose

/-- Changing a channel changes no id. -/
theorem map_id_set {e x : Entry} (hk : chans[k]? = some x) (hid : e.id = x.id) :
    (chans.set k e).map Entry.id = chans.map Entry.id := by
  rw [List.map_set, hid]
  apply List.ext_getElem?
  intro j
  by_cases hj : k = j
  · rw [← hj, List.getElem?_set_self', List.getElem?_map, hk]
    rfl
  · rw [List.getElem?_set_ne hj]

theorem faithful_set (hall : ∀ x ∈ chans, x.Faithful) (he : e.Faithful) :
    ∀ x ∈ chans.set k e, x.Faithful := by
  intro x hx
  rcases List.mem_or_eq_of_mem_set hx with hx | rfl
  · exact hall x hx
  · exact he

namespace Tracked

variable {w : Worker} {m : Finmap (fun _ : UInt64 => Nat)} {visited : List UInt64}
  {chans : List Entry}

/-- The worker moves on without touching a channel. -/
theorem move (h : Tracked w m visited chans) {w' : Worker} (htarget : w'.target = w.target)
    (hswept : w'.swept = false → w.swept = false)
    (hsending : ∀ buf k, w' = .sending buf k →
      ∃ e, chans[k]? = some e ∧ e.ch.closed = false ∧ e.id = channelId buf)
    (hfinished : w' = .finished → ∀ id k, m.lookup id = some k → id ∈ visited) :
    Tracked w' m visited chans where
  ids := h.ids
  mapped := h.mapped
  waiting := by rw [htarget]; exact h.waiting
  gone := by rw [htarget]; exact h.gone
  target := by rw [htarget]; exact h.target
  sending := hsending
  unswept hw := h.unswept (hswept hw)
  finished := hfinished
  faithful := h.faithful

variable {id : UInt64} {k : Nat}

/-- A new channel while the worker is in its loops. -/
theorem store (h : Tracked w m visited chans) (hswept : w.swept = false)
    (hid : id ∉ chans.map Entry.id) :
    Tracked w (m.insert id chans.length) visited (chans ++ [.new id]) := by
  have hcases : ∀ (k : Nat) (e : Entry), (chans ++ [.new id])[k]? = some e →
      chans[k]? = some e ∧ e.id ≠ id ∨ k = chans.length ∧ e = .new id := by
    intro k e hk
    by_cases hlt : k < chans.length
    · rw [List.getElem?_append_left hlt] at hk
      exact .inl ⟨hk, fun heq => hid (heq ▸ List.mem_map_of_mem (List.mem_of_getElem? hk))⟩
    · rw [List.getElem?_append_right (by omega)] at hk
      cases hindex : k - chans.length with
      | zero =>
        rw [hindex] at hk
        cases hk
        exact .inr ⟨by omega, rfl⟩
      | succ n =>
        rw [hindex] at hk
        cases hk
  have hleft : ∀ {k : Nat} {e : Entry} (x : Entry), chans[k]? = some e →
      (chans ++ [x])[k]? = some e := by
    intro k e x hk
    rw [List.getElem?_append_left (List.getElem?_eq_some_iff.mp hk).choose, hk]
  have hvisited := h.unswept hswept
  refine ⟨?_, ?_, ?_, ?_, ?_, ?_, fun _ => hvisited, ?_, ?_⟩
  · rw [List.map_append, List.map_singleton, List.nodup_append]
    refine ⟨h.ids, List.nodup_singleton _, ?_⟩
    intro a ha b hb hab
    have hab : a = id := hab.trans (List.mem_singleton.mp hb)
    exact hid (hab ▸ ha)
  · intro id' k hk
    by_cases heq : id' = id
    · rw [heq, Finmap.lookup_insert, Option.some.injEq] at hk
      rw [← hk, List.getElem?_concat_length]
      exact ⟨_, rfl, heq.symm⟩
    · rw [Finmap.lookup_insert_of_ne _ heq] at hk
      obtain ⟨e, he, hid'⟩ := h.mapped id' k hk
      exact ⟨e, hleft _ he, hid'⟩
  · intro k e hk hopen
    rcases hcases k e hk with ⟨hk, hne⟩ | ⟨rfl, rfl⟩
    · rw [Finmap.lookup_insert_of_ne _ hne]
      exact h.waiting k e hk hopen
    · exact .inr ⟨Finmap.lookup_insert _, by rw [hvisited]; nofun⟩
  · intro k e hk hlookup hclosed
    rcases hcases k e hk with ⟨hk, hne⟩ | ⟨rfl, rfl⟩
    · rw [Finmap.lookup_insert_of_ne _ hne] at hlookup
      exact h.gone k e hk hlookup hclosed
    · -- the new channel is open, and the worker does not know it
      rcases hclosed with hclosed | htarget
      · cases hclosed
      · obtain ⟨e, he, -⟩ := h.target _ htarget
        have hlt := (List.getElem?_eq_some_iff.mp he).choose
        omega
  · intro k hk
    obtain ⟨e, he, hopen⟩ := h.target k hk
    exact ⟨e, hleft _ he, hopen⟩
  · intro buf k hw
    obtain ⟨e, he, hopen, hid'⟩ := h.sending buf k hw
    exact ⟨e, hleft _ he, hopen, hid'⟩
  · intro hw
    rw [hw] at hswept
    cases hswept
  · intro e he
    rcases List.mem_append.mp he with he | he
    · exact h.faithful e he
    · rw [List.mem_singleton.mp he]
      exact ⟨rfl, nofun⟩

/-- **The map leads to open channels**, but for the keys that the `Range` has visited. -/
theorem open_of_lookup (h : Tracked w m visited chans) (hid : id ∉ visited)
    (hk : m.lookup id = some k) : ∃ e, chans[k]? = some e ∧ e.ch.closed = false ∧ e.id = id := by
  obtain ⟨e, he, heid⟩ := h.mapped id k hk
  refine ⟨e, he, ?_, heid⟩
  cases hclosed : e.ch.closed with
  | false => rfl
  | true =>
    have hmem := h.gone k e he (by rw [heid, hk]) (.inl hclosed)
    rw [heid] at hmem
    exact absurd hmem hid

/-- Between two closes, an open channel is that of a given key or waits under another. -/
theorem waiting_cases (h : Tracked w m visited chans) (hnone : w.target = none)
    (hk : m.lookup id = some k) {j : Nat} {e : Entry} (hj : chans[j]? = some e)
    (hopen : e.ch.closed = false) :
    k = j ∨ (e.id ≠ id ∧ m.lookup e.id = some j ∧ e.id ∉ visited) := by
  rcases h.waiting j e hj hopen with htarget | ⟨hlookup, hnew⟩
  · rw [hnone] at htarget
    cases htarget
  · by_cases heq : e.id = id
    · rw [heq, hk, Option.some.injEq] at hlookup
      exact .inl hlookup
    · exact .inr ⟨heq, hlookup, hnew⟩

/-- `LoadAndDelete` finds an open channel, which from then on only the worker knows. -/
theorem delete {loop : Loop} (h : Tracked (.removing loop id) m visited chans)
    (hk : m.lookup id = some k) : Tracked (.closing loop k) (m.erase id) visited chans := by
  have hvisited : visited = [] := h.unswept rfl
  obtain ⟨x, hx, hopen, hxid⟩ := h.open_of_lookup (by rw [hvisited]; nofun) hk
  refine ⟨h.ids, ?_, ?_, ?_, ?_, nofun, fun _ => hvisited, nofun, h.faithful⟩
  · intro id' j hj
    by_cases heq : id' = id
    · rw [heq, Finmap.lookup_erase] at hj
      cases hj
    · rw [Finmap.lookup_erase_ne heq] at hj
      exact h.mapped id' j hj
  · intro j e hj hopen
    rcases h.waiting_cases rfl hk hj hopen with rfl | ⟨hne, hlookup, hnew⟩
    · exact .inl rfl
    · rw [Finmap.lookup_erase_ne hne]
      exact .inr ⟨hlookup, hnew⟩
  · intro j e hj hlookup hclosed
    by_cases heq : e.id = id
    · rw [heq, Finmap.lookup_erase] at hlookup
      cases hlookup
    · rw [Finmap.lookup_erase_ne heq] at hlookup
      rcases hclosed with hclosed | htarget
      · exact h.gone j e hj hlookup (.inl hclosed)
      · cases htarget
        rw [hx] at hj
        cases hj
        exact absurd hxid heq
  · intro j hj
    cases hj
    exact ⟨x, hx, hopen⟩

/-- The `Range` comes to a key for the first time: its channel is open. -/
theorem visit (h : Tracked .range m visited chans) (hid : id ∉ visited)
    (hk : m.lookup id = some k) :
    Tracked (.rangeClosing k) m (id :: visited) chans := by
  obtain ⟨x, hx, hopen, hxid⟩ := h.open_of_lookup hid hk
  refine ⟨h.ids, h.mapped, ?_, ?_, ?_, nofun, nofun, nofun, h.faithful⟩
  · intro j e hj hopen
    rcases h.waiting_cases rfl hk hj hopen with rfl | ⟨hne, hlookup, hnew⟩
    · exact .inl rfl
    · refine .inr ⟨hlookup, fun hmem => ?_⟩
      rcases List.mem_cons.mp hmem with hmem | hmem
      · exact hne hmem
      · exact hnew hmem
  · intro j e hj hlookup hclosed
    rcases hclosed with hclosed | htarget
    · exact List.mem_cons_of_mem _ (h.gone j e hj hlookup (.inl hclosed))
    · cases htarget
      rw [hx] at hj
      cases hj
      rw [hxid]
      exact List.mem_cons_self
  · intro j hj
    cases hj
    exact ⟨x, hx, hopen⟩

/-- The worker closes its channel and goes on. -/
theorem close (h : Tracked w m visited chans) (htarget : w.target = some k) {e e' : Entry}
    (hk : chans[k]? = some e) (hid : e'.id = e.id) (hclosed : e'.ch.closed = true)
    (hfaithful : e'.Faithful) {w' : Worker} (hnone : w'.target = none) (hswept : w'.swept = w.swept)
    (hsending : ∀ buf k, w' ≠ .sending buf k) (hfinished : w' ≠ .finished) :
    Tracked w' m visited (chans.set k e') := by
  refine ⟨?_, ?_, ?_, ?_, ?_, ?_, ?_, ?_, ?_⟩
  · rw [map_id_set hk hid]
    exact h.ids
  · intro id j hj
    obtain ⟨x, hx, hxid⟩ := h.mapped id j hj
    by_cases heq : j = k
    · rw [heq, hk] at hx
      cases hx
      rw [heq]
      exact ⟨_, getElem?_set_of_some hk, hid.trans hxid⟩
    · exact ⟨x, by rw [List.getElem?_set_ne (fun h => heq h.symm), hx], hxid⟩
  · intro j x hj hopen
    rcases getElem?_set_cases hj with ⟨-, rfl⟩ | ⟨hne, hj⟩
    · rw [hclosed] at hopen
      cases hopen
    · rcases h.waiting j x hj hopen with hx | hx
      · rw [htarget] at hx
        cases hx
        exact absurd rfl hne
      · exact .inr hx
  · intro j x hj hlookup hgone
    rcases getElem?_set_cases hj with ⟨rfl, rfl⟩ | ⟨hne, hj⟩
    · rw [hid] at hlookup ⊢
      exact h.gone j e hk hlookup (.inr htarget)
    · rcases hgone with hgone | hx
      · exact h.gone j x hj hlookup (.inl hgone)
      · rw [hnone] at hx
        cases hx
  · intro j hj
    rw [hnone] at hj
    cases hj
  · intro buf j hw
    exact absurd hw (hsending buf j)
  · rw [hswept]
    exact h.unswept
  · intro hw
    exact absurd hw hfinished
  · exact faithful_set h.faithful hfaithful

/-- A channel gets another content. -/
theorem modify (h : Tracked w m visited chans) {e e' : Entry} (hk : chans[k]? = some e)
    (hid : e'.id = e.id) (hclosed : e'.ch.closed = e.ch.closed) (hfaithful : e'.Faithful) :
    Tracked w m visited (chans.set k e') := by
  -- every channel stands for the one it was
  have hold : ∀ (j : Nat) (x : Entry), (chans.set k e')[j]? = some x →
      ∃ y, chans[j]? = some y ∧ x.id = y.id ∧ x.ch.closed = y.ch.closed := by
    intro j x hj
    rcases getElem?_set_cases hj with ⟨rfl, rfl⟩ | ⟨-, hj⟩
    · exact ⟨e, hk, hid, hclosed⟩
    · exact ⟨x, hj, rfl, rfl⟩
  have hnew : ∀ (j : Nat) (y : Entry), chans[j]? = some y →
      ∃ x, (chans.set k e')[j]? = some x ∧ x.id = y.id ∧ x.ch.closed = y.ch.closed := by
    intro j y hj
    by_cases heq : j = k
    · rw [heq, hk] at hj
      cases hj
      rw [heq]
      exact ⟨e', getElem?_set_of_some hk, hid, hclosed⟩
    · exact ⟨y, by rw [List.getElem?_set_ne (fun h => heq h.symm), hj], rfl, rfl⟩
  refine ⟨?_, ?_, ?_, ?_, ?_, ?_, h.unswept, h.finished, ?_⟩
  · rw [map_id_set hk hid]
    exact h.ids
  · intro id j hj
    obtain ⟨y, hy, hyid⟩ := h.mapped id j hj
    obtain ⟨x, hx, hxid, -⟩ := hnew j y hy
    exact ⟨x, hx, hxid.trans hyid⟩
  · intro j x hj hopen
    obtain ⟨y, hy, hyid, hyclosed⟩ := hold j x hj
    rw [hyid]
    exact h.waiting j y hy (hyclosed.symm.trans hopen)
  · intro j x hj hlookup hgone
    obtain ⟨y, hy, hyid, hyclosed⟩ := hold j x hj
    rw [hyid] at hlookup ⊢
    rw [hyclosed] at hgone
    exact h.gone j y hy hlookup hgone
  · intro j hj
    obtain ⟨y, hy, hopen⟩ := h.target j hj
    obtain ⟨x, hx, -, hxclosed⟩ := hnew j y hy
    exact ⟨x, hx, hxclosed.trans hopen⟩
  · intro buf j hw
    obtain ⟨y, hy, hopen, hyid⟩ := h.sending buf j hw
    obtain ⟨x, hx, hxid, hxclosed⟩ := hnew j y hy
    exact ⟨x, hx, hxclosed.trans hopen, hxid.trans hyid⟩
  · exact faithful_set h.faithful hfaithful

end Tracked

/-! ## The mutex -/

/-- `closingCh` is closed last, by `Close`, and ends the loops of the worker. -/
structure Locked (s : State) : Prop where
  unstarted : s.workerOnce = false → s.worker = .absent ∧ s.closingCh = none
  shut : ∀ c, s.closingCh = some c → c.closed = true → s.closed = true ∧ s.holder = .idle
  swept : s.worker.swept = true → ∃ c, s.closingCh = some c ∧ c.closed = true
  adding : ∀ id, s.holder = .adding id → id ∉ s.chans.map Entry.id
  closing : s.holder = .closing → s.closed = true

/-- While somebody holds the mutex, or the forwarder is open, `closingCh` is open. -/
theorem Locked.closingCh_open (h : Locked s) (hbusy : s.closed = false ∨ s.holder ≠ .idle)
    {c : Chan UInt64} (hc : s.closingCh = some c) : c.closed = false := by
  cases hclosed : c.closed with
  | false => rfl
  | true =>
    obtain ⟨hshut, hidle⟩ := h.shut c hc hclosed
    rcases hbusy with hopen | hheld
    · rw [hshut] at hopen
      cases hopen
    · exact absurd hidle hheld

theorem Locked.unswept (h : Locked s) (hbusy : s.closed = false ∨ s.holder ≠ .idle) :
    s.worker.swept = false := by
  cases hswept : s.worker.swept with
  | false => rfl
  | true =>
    obtain ⟨c, hc, hclosed⟩ := h.swept hswept
    rw [h.closingCh_open hbusy hc] at hclosed
    cases hclosed

/-- The worker does something with the channels. -/
theorem Locked.work {s s' : State} (h : Locked s) (hworker : s.worker ≠ .absent)
    (hholder : s'.holder = s.holder) (hclosed : s'.closed = s.closed)
    (honce : s'.workerOnce = s.workerOnce) (hclosingCh : s'.closingCh = s.closingCh)
    (hids : s'.chans.map Entry.id = s.chans.map Entry.id)
    (hswept : s'.worker.swept = true → ∃ c, s.closingCh = some c ∧ c.closed = true) :
    Locked s' := by
  refine ⟨?_, ?_, ?_, ?_, ?_⟩
  · rw [honce]
    intro hunstarted
    exact absurd (h.unstarted hunstarted).1 hworker
  · rw [hclosingCh, hclosed, hholder]
    exact h.shut
  · rw [hclosingCh]
    exact hswept
  · rw [hholder, hids]
    exact h.adding
  · rw [hholder, hclosed]
    exact h.closing

/-! ## The invariant -/

structure Inv (s : State) : Prop where
  calm : s.panic = none
  locked : Locked s
  tracked : Tracked s.worker s.channelMap s.visited s.chans

namespace Inv

variable {s : State}

theorem startWorker (hinv : Inv s) :
    Inv (startWorker s) ∧ (UdpForwarder.startWorker s).closed = s.closed ∧
      (UdpForwarder.startWorker s).chans = s.chans := by
  unfold UdpForwarder.startWorker
  by_cases honce : s.workerOnce = true
  · rw [if_pos honce]
    exact ⟨hinv, rfl, rfl⟩
  · rw [if_neg honce]
    obtain ⟨hworker, -⟩ := hinv.locked.unstarted (Bool.eq_false_of_not_eq_true honce)
    have htracked := hinv.tracked
    rw [hworker] at htracked
    refine ⟨⟨hinv.calm, ⟨nofun, ?_, nofun, hinv.locked.adding, hinv.locked.closing⟩,
      htracked.move rfl (fun _ => rfl) nofun nofun⟩, rfl, rfl⟩
    intro c hc hclosed
    cases hc
    cases hclosed

/-- Somebody takes the mutex while the forwarder is open. -/
theorem hold (hinv : Inv s) (hopen : s.closed = false) {holder : Holder}
    (hadding : ∀ id, holder = .adding id → id ∉ s.chans.map Entry.id)
    (hclosing : holder ≠ .closing) : Inv { s with holder := holder } := by
  refine ⟨hinv.calm, ⟨hinv.locked.unstarted, ?_, hinv.locked.swept, hadding,
    fun heq => absurd heq hclosing⟩, hinv.tracked⟩
  intro c hc hclosed
  rw [hinv.locked.closingCh_open (.inl hopen) hc] at hclosed
  cases hclosed

variable {id : UInt64} {s' : State} {k : Nat} (hinv : Inv s)
include hinv

theorem addChannel (hid : id ∉ s.chans.map Entry.id) : Inv (addChannel s id) := by
  unfold UdpForwarder.addChannel
  split
  · exact hinv
  · next hopen =>
    obtain ⟨hstarted, hclosed, hchans⟩ := hinv.startWorker
    refine hstarted.hold (hclosed.trans (Bool.eq_false_of_not_eq_true hopen)) ?_ nofun
    intro id' heq
    cases heq
    rw [hchans]
    exact hid

theorem removeChannel (id : UInt64) : Inv (removeChannel s id) := by
  unfold UdpForwarder.removeChannel
  split
  · exact hinv
  · next hopen =>
    obtain ⟨hstarted, hclosed, -⟩ := hinv.startWorker
    exact hstarted.hold (hclosed.trans (Bool.eq_false_of_not_eq_true hopen)) nofun nofun

theorem storeChannel (hholder : s.holder = .adding id) : Inv (storeChannel s id) := by
  have hbusy : s.holder ≠ .idle := by rw [hholder]; nofun
  refine ⟨hinv.calm, ⟨hinv.locked.unstarted, ?_, hinv.locked.swept, nofun, nofun⟩,
    hinv.tracked.store (hinv.locked.unswept (.inr hbusy)) (hinv.locked.adding id hholder)⟩
  intro c hc hclosed
  exact ⟨(hinv.locked.shut c hc hclosed).1, rfl⟩

/-- `removeChannel` holds the mutex until its id is sent, so `closingCh` is open. -/
theorem sendClosing (hholder : s.holder = .removing id) (h : sendClosing s id = some s') :
    Inv s' := by
  have hbusy : s.holder ≠ .idle := by rw [hholder]; nofun
  unfold UdpForwarder.sendClosing at h
  cases hc : s.closingCh with
  | none =>
    rw [hc] at h
    cases h
  | some c =>
    have hopen := hinv.locked.closingCh_open (.inr hbusy) hc
    rw [hc] at h
    cases hsend : c.send id with
    | none =>
      simp only [hsend] at h
      cases h
    | some r =>
      rw [Chan.send_of_open hopen hsend] at hsend
      simp only [hsend] at h
      cases h
      refine ⟨hinv.calm, ⟨?_, ?_, ?_, nofun, nofun⟩, hinv.tracked⟩
      · intro hunstarted
        have hnone := (hinv.locked.unstarted hunstarted).2
        rw [hc] at hnone
        cases hnone
      · intro c' hc' hclosed
        cases hc'
        have hclosed : c.closed = true := hclosed
        rw [hopen] at hclosed
        cases hclosed
      · intro hswept
        have hswept : s.worker.swept = true := hswept
        rw [hinv.locked.unswept (.inr hbusy)] at hswept
        cases hswept

theorem close : Inv (close s) := by
  unfold UdpForwarder.close
  split
  · exact hinv
  · next hopen =>
    refine ⟨hinv.calm, ⟨hinv.locked.unstarted, ?_, hinv.locked.swept, nofun, fun _ => rfl⟩,
      hinv.tracked⟩
    intro c hc hclosed
    rw [hinv.locked.closingCh_open (.inl (Bool.eq_false_of_not_eq_true hopen)) hc] at hclosed
    cases hclosed

theorem closeClosingCh (hholder : s.holder = .closing) : Inv (closeClosingCh s) := by
  have hbusy : s.holder ≠ .idle := by rw [hholder]; nofun
  have hclosed := hinv.locked.closing hholder
  unfold UdpForwarder.closeClosingCh
  split
  · exact ⟨hinv.calm, ⟨hinv.locked.unstarted, fun _ _ _ => ⟨hclosed, rfl⟩, hinv.locked.swept,
      nofun, nofun⟩, hinv.tracked⟩
  · next c hc =>
    rw [Chan.close_of_open (hinv.locked.closingCh_open (.inr hbusy) hc)]
    refine ⟨hinv.calm, ⟨?_, fun _ _ _ => ⟨hclosed, rfl⟩, fun _ => ⟨_, rfl, rfl⟩, nofun, nofun⟩,
      hinv.tracked⟩
    intro hunstarted
    have hnone := (hinv.locked.unstarted hunstarted).2
    rw [hc] at hnone
    cases hnone

theorem receiveDatagram (result : Option Bytes) : Inv (receiveDatagram s result) := by
  have hreceiver : ∀ r, Inv { s with receiver := r } := fun r =>
    ⟨hinv.calm, ⟨hinv.locked.unstarted, hinv.locked.shut, hinv.locked.swept, hinv.locked.adding,
      hinv.locked.closing⟩, hinv.tracked⟩
  cases result with
  | none => exact hreceiver _
  | some buf =>
    unfold UdpForwarder.receiveDatagram
    dsimp only
    split
    · exact hinv
    · exact hreceiver _

/-- The worker moves on without touching a channel. -/
theorem move (hworker : s.worker ≠ .absent) {w : Worker} (htarget : w.target = s.worker.target)
    (hunswept : w.swept = false → s.worker.swept = false)
    (hswept : w.swept = true → ∃ c, s.closingCh = some c ∧ c.closed = true)
    (hsending : ∀ buf k, w = .sending buf k →
      ∃ e, s.chans[k]? = some e ∧ e.ch.closed = false ∧ e.id = channelId buf)
    (hfinished : w = .finished → ∀ id k, s.channelMap.lookup id = some k → id ∈ s.visited) :
    Inv { s with worker := w } :=
  ⟨hinv.calm, hinv.locked.work hworker rfl rfl rfl rfl rfl hswept,
    hinv.tracked.move htarget hunswept hsending hfinished⟩

/-- A channel gets another content. -/
theorem modify {e e' : Entry} (hk : s.chans[k]? = some e) (hid : e'.id = e.id)
    (hclosed : e'.ch.closed = e.ch.closed) (hfaithful : e'.Faithful) :
    Inv { s with chans := s.chans.set k e' } := by
  refine ⟨hinv.calm, ⟨hinv.locked.unstarted, hinv.locked.shut, hinv.locked.swept, ?_,
    hinv.locked.closing⟩, hinv.tracked.modify hk hid hclosed hfaithful⟩
  intro id hholder
  rw [map_id_set hk hid]
  exact hinv.locked.adding id hholder

theorem receive (h : receive s k = some s') : Inv s' := by
  unfold UdpForwarder.receive at h
  split at h
  · cases h
  · next e hk =>
    obtain ⟨hbytes, hdelivered⟩ := hinv.tracked.faithful e (List.mem_of_getElem? hk)
    split at h
    · next buf ch hrecv =>
      cases h
      rcases Chan.recv_cases hrecv with ⟨x, rest, hqueue, heq⟩ | ⟨-, -, heq⟩
      · cases heq
        refine hinv.modify hk rfl rfl ⟨?_, hdelivered⟩
        show (e.received ++ [buf]) ++ rest = _
        rw [← hbytes, hqueue, List.append_assoc]
        rfl
      · cases heq
    · cases h
      exact hinv
    · cases h

theorem receiveClosing {loop : Loop} (hworker : s.worker = .head loop)
    (h : receiveClosing s loop = some s') : Inv s' := by
  have hbusy : s.worker ≠ .absent := by rw [hworker]; nofun
  have htarget : s.worker.target = none := by rw [hworker]; rfl
  have hunswept : s.worker.swept = false := by rw [hworker]; rfl
  unfold UdpForwarder.receiveClosing at h
  split at h
  · cases h
  · next c hc =>
    split at h
    · cases h
    · next id c' hrecv =>
      -- an id: only the queue of `closingCh` changes
      cases h
      rcases Chan.recv_cases hrecv with ⟨x, rest, -, heq⟩ | ⟨-, -, heq⟩
      · cases heq
        refine ⟨hinv.calm, ⟨?_, ?_, nofun, hinv.locked.adding, hinv.locked.closing⟩,
          hinv.tracked.move htarget.symm (fun _ => hunswept) nofun nofun⟩
        · intro hunstarted
          exact absurd (hinv.locked.unstarted hunstarted).1 hbusy
        · intro c' hc' hclosed
          cases hc'
          exact hinv.locked.shut c hc hclosed
      · cases heq
    · next c' hrecv =>
      -- the end of the channel, which `Close` has closed
      cases h
      rcases Chan.recv_cases hrecv with ⟨x, rest, -, heq⟩ | ⟨-, hclosed, -⟩
      · cases heq
      · cases loop with
        | select => exact hinv.move hbusy htarget.symm (fun _ => hunswept) nofun nofun nofun
        | drain =>
          exact hinv.move hbusy htarget.symm (fun _ => hunswept) (fun _ => ⟨c, hc, hclosed⟩)
            nofun nofun

theorem receiveIncoming (hworker : s.worker = .head .select) (h : receiveIncoming s = some s') :
    Inv s' := by
  have hbusy : s.worker ≠ .absent := by rw [hworker]; nofun
  have htarget : s.worker.target = none := by rw [hworker]; rfl
  have hunswept : s.worker.swept = false := by rw [hworker]; rfl
  unfold UdpForwarder.receiveIncoming at h
  split at h
  · cases h
    exact ⟨hinv.calm, hinv.locked.work hbusy rfl rfl rfl rfl rfl nofun,
      hinv.tracked.move htarget.symm (fun _ => hunswept) nofun nofun⟩
  · cases h
    exact hinv.move hbusy htarget.symm (fun _ => hunswept) nofun nofun nofun
  · cases h

/-- The channel that `Load` finds in the loop is open. -/
theorem load {buf : Bytes} (hworker : s.worker = .incoming buf)
    (hk : s.channelMap.lookup (channelId buf) = some k) :
    Inv { s with worker := .sending buf k } := by
  have hunswept : s.worker.swept = false := by rw [hworker]; rfl
  refine hinv.move (by rw [hworker]; nofun) (by rw [hworker]; rfl) (fun _ => hunswept) nofun ?_
    nofun
  intro buf' k' heq
  cases heq
  exact hinv.tracked.open_of_lookup (by rw [hinv.tracked.unswept hunswept]; nofun) hk

theorem sendIncoming {buf : Bytes} (hworker : s.worker = .sending buf k)
    (h : sendIncoming s buf k = some s') : Inv s' := by
  have hback : ∀ t, Inv t → t.worker = s.worker → Inv { t with worker := .head .select } := by
    intro t ht heq
    rw [hworker] at heq
    exact ht.move (by rw [heq]; nofun) (by rw [heq]; rfl) (fun _ => by rw [heq]; rfl) nofun nofun
      nofun
  obtain ⟨e, hk, hopen, hid⟩ := hinv.tracked.sending buf k hworker
  obtain ⟨hbytes, hdelivered⟩ := hinv.tracked.faithful e (List.mem_of_getElem? hk)
  unfold UdpForwarder.sendIncoming at h
  simp only [hk] at h
  rcases Chan.trySend_of_open hopen (payload buf) with hsend | hsend
  · rw [hsend] at h
    cases h
    refine hback { s with chans := s.chans.set k _ } (hinv.modify hk rfl rfl ⟨?_, ?_⟩) rfl
    · show e.received ++ (e.ch.queue ++ [payload buf]) = _
      rw [← List.append_assoc, hbytes, if_pos rfl, List.map_append]
      rfl
    · intro d hd
      rw [if_pos rfl] at hd
      rcases List.mem_append.mp hd with hd | hd
      · exact hdelivered d hd
      · rw [List.mem_singleton.mp hd]
        exact ⟨rfl, hid⟩
  · rw [hsend] at h
    cases h
    exact hback { s with chans := s.chans.set k _ }
      (hinv.modify hk rfl rfl ⟨hbytes, hdelivered⟩) rfl

theorem loadAndDelete {loop : Loop} (hworker : s.worker = .removing loop id) :
    Inv (loadAndDelete s loop id) := by
  have hbusy : s.worker ≠ .absent := by rw [hworker]; nofun
  have htracked := hinv.tracked
  rw [hworker] at htracked
  unfold UdpForwarder.loadAndDelete
  split
  · exact hinv.move hbusy (by rw [hworker]; rfl) (fun _ => by rw [hworker]; rfl) nofun nofun nofun
  · next k hk =>
    exact ⟨hinv.calm, hinv.locked.work hbusy rfl rfl rfl rfl rfl nofun, htracked.delete hk⟩

/-- The channel that the worker is about to close is open. -/
theorem closeChannel (htarget : s.worker.target = some k) {w : Worker}
    (h : closeChannel s k w = some s') (hnone : w.target = none) (hswept : w.swept = s.worker.swept)
    (hsending : ∀ buf k, w ≠ .sending buf k) (hfinished : w ≠ .finished) : Inv s' := by
  have hbusy : s.worker ≠ .absent := by
    intro habsent
    rw [habsent] at htarget
    cases htarget
  obtain ⟨e, hk, hopen⟩ := hinv.tracked.target k htarget
  have hfaithful := hinv.tracked.faithful e (List.mem_of_getElem? hk)
  unfold UdpForwarder.closeChannel at h
  simp only [hk, Chan.close_of_open hopen] at h
  cases h
  refine ⟨hinv.calm, hinv.locked.work hbusy rfl rfl rfl rfl (map_id_set hk rfl) ?_, ?_⟩
  · intro hw
    exact hinv.locked.swept (hswept.symm.trans hw)
  · refine hinv.tracked.close htarget hk ?_ ?_ ?_ hnone hswept hsending hfinished
    · rfl
    · rfl
    · exact hfaithful

theorem visit (h : visit s id = some s') : Inv s' := by
  unfold UdpForwarder.visit at h
  split at h
  · cases h
  · next k hk =>
    obtain ⟨⟨hworker, hid⟩, rfl⟩ := enabledIf_eq_some h
    have htracked := hinv.tracked
    rw [hworker] at htracked
    refine ⟨hinv.calm, hinv.locked.work (by rw [hworker]; nofun) rfl rfl rfl rfl rfl ?_,
      htracked.visit hid hk⟩
    intro _
    exact hinv.locked.swept (by rw [hworker]; rfl)

theorem work (h : work s = some s') : Inv s' := by
  unfold UdpForwarder.work at h
  split at h
  · next loop hworker => exact hinv.receiveClosing hworker h
  · next buf hworker =>
    split at h
    · cases h
      exact hinv.move (by rw [hworker]; nofun) (by rw [hworker]; rfl) (fun _ => by rw [hworker]; rfl)
        nofun nofun nofun
    · next k hk =>
      cases h
      exact hinv.load hworker hk
  · next buf k hworker => exact hinv.sendIncoming hworker h
  · next loop id hworker =>
    cases h
    exact hinv.loadAndDelete hworker
  · next loop k hworker =>
    exact hinv.closeChannel (by rw [hworker]; rfl) h rfl (by rw [hworker]; rfl) nofun nofun
  · next k hworker =>
    exact hinv.closeChannel (by rw [hworker]; rfl) h rfl (by rw [hworker]; rfl) nofun nofun
  · cases h

theorem next {l : Label} (h : next s l = some s') : Inv s' := by
  cases l with
  | addChannel id =>
    obtain ⟨⟨-, hid⟩, rfl⟩ := enabledIf_eq_some h
    exact hinv.addChannel hid
  | storeChannel =>
    simp only [UdpForwarder.next] at h
    split at h
    · next id hholder =>
      cases h
      exact hinv.storeChannel hholder
    · cases h
  | removeChannel id =>
    obtain ⟨-, rfl⟩ := enabledIf_eq_some h
    exact hinv.removeChannel id
  | sendClosing =>
    simp only [UdpForwarder.next] at h
    split at h
    · next id hholder => exact hinv.sendClosing hholder h
    · cases h
  | close =>
    obtain ⟨-, rfl⟩ := enabledIf_eq_some h
    exact hinv.close
  | closeClosingCh =>
    obtain ⟨hholder, rfl⟩ := enabledIf_eq_some h
    exact hinv.closeClosingCh hholder
  | receiveDatagram result =>
    obtain ⟨-, rfl⟩ := enabledIf_eq_some h
    exact hinv.receiveDatagram result
  | receive k => exact hinv.receive h
  | work => exact hinv.work h
  | workIncoming =>
    simp only [UdpForwarder.next] at h
    split at h
    · next hworker => exact hinv.receiveIncoming hworker h
    · cases h
  | visit id => exact hinv.visit h
  | endRange =>
    obtain ⟨⟨hworker, hall⟩, rfl⟩ := enabledIf_eq_some h
    refine hinv.move (by rw [hworker]; nofun) (by rw [hworker]; rfl) nofun ?_ nofun ?_
    · intro _
      exact hinv.locked.swept (by rw [hworker]; rfl)
    · intro _ id k hk
      exact List.mem_toFinset.mp (hall (Finmap.mem_keys.mpr (Finmap.mem_of_lookup_eq_some hk)))

end Inv

theorem inv_start : Inv start :=
  ⟨rfl, ⟨fun _ => ⟨rfl, rfl⟩, nofun, nofun, nofun, nofun⟩,
    ⟨List.nodup_nil, nofun, nofun, nofun, nofun, nofun, fun _ => rfl, nofun, nofun⟩⟩

theorem inv_of_reachable (hs : forwarderRuns.Reachable s) : Inv s :=
  System.invariant_ofStep inv_start (fun _ _ _ h => h.next) hs

/-! ## Safety of the forwarder -/

/-- At the end of the worker every channel is closed: an open one would be in the map, where the
    `Range` has visited it. -/
theorem Inv.closed_of_finished (hinv : Inv s) (hworker : s.worker = .finished) (he : e ∈ s.chans) :
    e.ch.closed = true := by
  obtain ⟨k, hk⟩ := List.mem_iff_getElem?.mp he
  cases hopen : e.ch.closed with
  | true => rfl
  | false =>
    rcases hinv.tracked.waiting k e hk hopen with htarget | ⟨hlookup, hnew⟩
    · rw [hworker] at htarget
      cases htarget
    · exact absurd (hinv.tracked.finished hworker _ k hlookup) hnew

/-- **No panic, no channel left open, and no datagram in a wrong channel**, however the three
    functions, the datagrams and the worker interleave: no channel is closed twice or sent on
    after its end; when the worker has finished all channels are closed; and an owner receives,
    in order, the payloads that were sent under the id of its channel, which is no other's. -/
theorem forwarder_safe {s : State} (hs : forwarderRuns.Reachable s) :
    s.panic = none ∧ (s.worker = .finished → ∀ e ∈ s.chans, e.ch.closed = true) ∧
      (s.chans.map Entry.id).Nodup ∧
      ∀ e ∈ s.chans, e.received ++ e.ch.queue = e.delivered.map Prod.snd ∧
        ∀ d ∈ e.delivered, ∀ closed maxDatagramSize id buf,
          sendDatagram closed maxDatagramSize id buf = some d.1 → d.2 = buf ∧ e.id = id := by
  have hinv := inv_of_reachable hs
  refine ⟨hinv.calm, fun hworker e he => hinv.closed_of_finished hworker he, hinv.tracked.ids, ?_⟩
  intro e he
  obtain ⟨hbytes, hdelivered⟩ := hinv.tracked.faithful e he
  refine ⟨hbytes, ?_⟩
  intro d hd closed maxDatagramSize id buf hsent
  obtain ⟨hid, hbuf⟩ := sendDatagram_parts hsent
  obtain ⟨hpayload, hchannel⟩ := hdelivered d hd
  exact ⟨hpayload.trans hbuf, hchannel.trans hid⟩

/-- Three channels: one is removed in the loop, one after the connection has ended, one is left
    for the `Range`; the second has got a datagram. -/
theorem three_channels_closed :
    ∃ s, forwarderRuns.Reachable s ∧
      s.chans.map (fun e => (e.id, e.delivered.map Prod.snd)) = [(1, []), (2, [[9]]), (3, [])] ∧
      ∀ e ∈ s.chans, e.ch.closed = true := by
  obtain ⟨s, hrun, hworker, hchans⟩ : ∃ s, runLabels next start
      [.addChannel 1, .storeChannel, .addChannel 2, .storeChannel, .addChannel 3, .storeChannel,
        .receiveDatagram (sendDatagram false 1200 2 [9]), .workIncoming, .work, .work,
        .removeChannel 1, .sendClosing, .work, .work, .work,
        .receiveDatagram none, .workIncoming,
        .removeChannel 2, .sendClosing, .work, .work, .work,
        .close, .closeClosingCh, .work, .visit 3, .work, .endRange] = some s ∧
      s.worker = .finished ∧
      s.chans.map (fun e => (e.id, e.delivered.map Prod.snd)) = [(1, []), (2, [[9]]), (3, [])] :=
    exists_of_runLabels (by decide +kernel)
  have hs : forwarderRuns.Reachable s := .of_runLabels (fun _ _ _ h => h) (.init rfl) hrun
  exact ⟨s, hs, hchans, (forwarder_safe hs).2.1 hworker⟩

end UdpForwarder
