import Tssh.Framework.BigEndian
import Tssh.Framework.System
import Mathlib.Data.List.Nodup

/-! # Pending Packets of a UDP Forward Session

    The listener of a UDP forward on the server (`handleListenUdpEvent`, `tsshd/datagram.go`)
    reads every packet into one buffer and passes it to the session of its peer.  The stream to
    the client is attached later, by another goroutine.  Until then `writePacket` keeps the
    first `kMaxUdpForwardPendingPackets` packets; `attachStream` flushes them, and from then on
    packets go straight to the forward connection.  Both hold `writeMu`.

    The forward connection appends the tag of its channel to the slice it is given, in place if
    there is room, and the listener reads the next packet into the same buffer.  The pending
    packets are copies with room for a tag.  All of that happens in explicit memory here.

    A packet arrives at the session when `writePacket` gets the mutex.  What is given to the
    forward connection, and what is still to be flushed, is at any time the first packets that
    arrived before the attach and then all that arrived after it (`Inv.order`).
-/

open LTS Go

namespace UdpPending

/-! ## State -/

def kMaxUdpForwardPendingPackets : Nat := 1024

def kUdpForwardChannelIdSize : Nat := 8

/-- The buffer of the listener; its `size` is `0xffff` in the code. -/
def buffer (size : Nat) : Slice := { arr := 0, off := 0, len := size, cap := size }

/-- One call of `forwardConn.Write`: the packet, and the datagram if it went that way. -/
structure Given where
  packet : Bytes
  datagram : Option Bytes
  deriving DecidableEq, Repr

/-- `udpForwardSession` with its two goroutines.  `packet` is what the listener has read and not
    yet passed on: its length, and as history its content.  `flushing` is the rest of the loop
    of `attachStream`, which holds the mutex.  The other history fields are the packets that
    arrived before and after the attach, and the calls of the forward connection. -/
structure State where
  heap : Heap
  packet : Option (Nat × Bytes)
  pendingFlag : Bool
  pendingBuf : List Slice
  flushing : Option (List Slice)
  before : List Bytes
  after : List Bytes
  given : List Given

def start (size : Nat) : State where
  heap := ⟨[List.replicate size 0]⟩
  packet := none
  pendingFlag := true
  pendingBuf := []
  flushing := none
  before := []
  after := []
  given := []

/-! ## Steps -/

variable (id : UInt64) (size : Nat)

/-- `doWrite`: the forward connection of channel `id` is given the packet.  `sends` is whether
    `sendDatagram` gets to its `append`: there is a forwarder, it is open, and the packet is
    not too long.  Otherwise, or after an error, the packet goes to the stream. -/
def doWrite (s : State) (data : Slice) (sends : Bool) : State :=
  let tagged := append s.heap data (putUint64 id) 0
  { s with
    heap := if sends then tagged.2 else s.heap
    given := s.given ++
      [{ packet := data.bytes s.heap
         datagram := if sends then some (tagged.1.bytes tagged.2) else none }] }

/-- `buf := make([]byte, len(data), len(data)+kUdpForwardChannelIdSize); copy(buf, data)`. -/
def cloneWithRoom (h : Heap) (data : Slice) : Slice × Heap :=
  let made := h.alloc (List.replicate (data.len + kUdpForwardChannelIdSize) 0)
  (made.1.upTo data.len, copy made.2 (made.1.upTo data.len) data)

/-- `writePacket`, without the history of the arrival. -/
def writePacket (s : State) (data : Slice) (sends : Bool) : State :=
  if s.pendingFlag then
    -- a packet over the limit is lost
    if s.pendingBuf.length ≥ kMaxUdpForwardPendingPackets then s
    else
      { s with
        heap := (cloneWithRoom s.heap data).2
        pendingBuf := s.pendingBuf ++ [(cloneWithRoom s.heap data).1] }
  else doWrite id s data sends

/-- The listener reads a packet of this peer, or anything else happens to its buffer while it
    serves another peer; it calls `writePacket`; `attachStream` begins, flushes one packet, or
    ends. -/
inductive Label where
  | read (bs : Bytes)
  | other (pos : Nat) (bs : Bytes)
  | writePacket (sends : Bool)
  | attachStream
  | flush (sends : Bool)
  | attached
  deriving DecidableEq, Repr

def next (s : State) : Label → Option State
  | .read bs =>
    enabledIf (s.packet = none ∧ bs.length ≤ size)
      { s with heap := s.heap.store (buffer size).arr 0 bs, packet := some (bs.length, bs) }
  | .other pos bs =>
    enabledIf (s.packet = none ∧ pos + bs.length ≤ size)
      { s with heap := s.heap.store (buffer size).arr pos bs }
  | .writePacket sends =>
    match s.packet with
    | none => none
    | some (n, content) =>
      -- `attachStream` holds the mutex until its loop has ended
      enabledIf (s.flushing = none)
        { writePacket id s ((buffer size).upTo n) sends with
          packet := none
          before := if s.pendingFlag then s.before ++ [content] else s.before
          after := if s.pendingFlag then s.after else s.after ++ [content] }
  | .attachStream =>
    enabledIf (s.flushing = none ∧ s.pendingFlag = true)
      { s with pendingFlag := false, flushing := some s.pendingBuf }
  | .flush sends =>
    match s.flushing with
    | some (data :: rest) => some { doWrite id s data sends with flushing := some rest }
    | _ => none
  | .attached =>
    enabledIf (s.flushing = some []) { s with flushing := none, pendingBuf := [] }

/-- A session with channel `id`, any packets, and one attach. -/
def sessionRuns : System State Label := .ofStep (start size) (next id size)

/-- The packets that are kept for the forward connection. -/
def State.left (s : State) : List Slice :=
  match s.flushing with
  | some rest => rest
  | none => if s.pendingFlag then s.pendingBuf else []

/-! ## The invariant -/

/-- A kept packet has an array of its own, which is not that of the listener. -/
structure Kept (h : Heap) (l : List Slice) : Prop where
  valid : ∀ d ∈ l, d.Valid h
  own : ∀ d ∈ l, d.arr ≠ 0
  apart : (l.map Slice.arr).Nodup

/-- The arrivals that have to reach the forward connection. -/
def State.due (s : State) : List Bytes :=
  s.before.take kMaxUdpForwardPendingPackets ++ s.after

structure Inv (s : State) : Prop where
  valid : (buffer size).Valid s.heap
  packet : ∀ n content, s.packet = some (n, content) →
    n ≤ size ∧ ((buffer size).upTo n).bytes s.heap = content
  kept : Kept s.heap s.left
  order : s.given.map Given.packet ++ s.left.map (Slice.bytes s.heap) = s.due
  pending : s.pendingFlag = true → s.given = [] ∧ s.after = [] ∧ s.flushing = none
  flushing : s.flushing ≠ none → s.after = []
  datagrams : ∀ g ∈ s.given, ∀ d, g.datagram = some d → d = g.packet ++ putUint64 id

variable {id : UInt64} {size : Nat}

/-- Memory may change in any way that leaves the kept packets alone. -/
theorem Kept.mono {h : Heap} {l : List Slice} (hkept : Kept h l) (h' : Heap)
    (hkeep : ∀ d ∈ l, d.Valid h' ∧ d.bytes h' = d.bytes h) :
    Kept h' l ∧ l.map (Slice.bytes h') = l.map (Slice.bytes h) :=
  ⟨⟨fun d hd => (hkeep d hd).1, hkept.own, hkept.apart⟩,
   List.map_congr_left (fun d hd => (hkeep d hd).2)⟩

variable {bs : Bytes} {s : State} {data : Slice}

/-- The listener writes into its buffer. -/
theorem Kept.store {h : Heap} {l : List Slice} (hkept : Kept h l) (hbuffer : (buffer size).Valid h)
    {pos : Nat} (hfit : pos + bs.length ≤ size) :
    Kept (h.store 0 pos bs) l ∧
      l.map (Slice.bytes (h.store 0 pos bs)) = l.map (Slice.bytes h) := by
  have hcap : 0 + size ≤ (h.array 0).length := hbuffer.cap_le
  apply hkept.mono
  intro d hd
  exact ⟨(hkept.valid d hd).store (by omega),
    Slice.bytes_store_of_ne (fun heq => hkept.own d hd heq.symm)⟩

theorem Inv.listen {s s' : State} (hinv : Inv id size s) {pos : Nat} (hfit : pos + bs.length ≤ size)
    (hheap : s'.heap = s.heap.store 0 pos bs) (hleft : s'.left = s.left)
    (hgiven : s'.given = s.given) (hdue : s'.due = s.due) (hflag : s'.pendingFlag = s.pendingFlag)
    (hafter : s'.after = s.after) (hflushing : s'.flushing = s.flushing)
    (hpacket : ∀ n content, s'.packet = some (n, content) →
      n ≤ size ∧ ((buffer size).upTo n).bytes s'.heap = content) : Inv id size s' := by
  obtain ⟨hkept, hbytes⟩ := hinv.kept.store hinv.valid hfit
  have hcap : 0 + size ≤ (s.heap.array 0).length := hinv.valid.cap_le
  refine ⟨?_, hpacket, ?_, ?_, ?_, ?_, ?_⟩
  · rw [hheap]
    exact hinv.valid.store (by omega)
  · rw [hheap, hleft]
    exact hkept
  · rw [hgiven, hleft, hheap, hbytes, hdue]
    exact hinv.order
  · rw [hflag, hgiven, hafter, hflushing]
    exact hinv.pending
  · rw [hflushing, hafter]
    exact hinv.flushing
  · rw [hgiven]
    exact hinv.datagrams

theorem Inv.read (hinv : Inv id size s) (hfit : bs.length ≤ size) :
    Inv id size { s with heap := s.heap.store 0 0 bs, packet := some (bs.length, bs) } := by
  refine hinv.listen (by omega) rfl rfl rfl rfl rfl rfl rfl ?_
  intro n content hpacket
  cases hpacket
  have hfront : ((buffer size).upTo bs.length).Valid s.heap := hinv.valid.upTo hfit
  refine ⟨hfit, ?_⟩
  -- the packet covers the front of the buffer
  exact hfront.bytes_store_all rfl

theorem Inv.other (hinv : Inv id size s) (hpacket : s.packet = none) {pos : Nat}
    (hfit : pos + bs.length ≤ size) : Inv id size { s with heap := s.heap.store 0 pos bs } := by
  refine hinv.listen hfit rfl rfl rfl rfl rfl rfl rfl ?_
  intro n content hsome
  have hsome : s.packet = some (n, content) := hsome
  rw [hpacket] at hsome
  cases hsome

theorem cloneWithRoom_spec {h : Heap} (hdata : data.Valid h) :
    h.le (cloneWithRoom h data).2 ∧ (cloneWithRoom h data).1.Valid (cloneWithRoom h data).2 ∧
      (cloneWithRoom h data).1.bytes (cloneWithRoom h data).2 = data.bytes h ∧
      (cloneWithRoom h data).1.arr = h.arrays.length := by
  have hcopy := copy_alloc_front hdata
    (List.replicate (data.len + kUdpForwardChannelIdSize) 0) rfl (by simp)
  exact ⟨hcopy.1, hcopy.2.1, hcopy.2.2, rfl⟩

/-- A kept copy goes into a new array. -/
theorem Kept.concat {h h' : Heap} {l : List Slice} {d : Slice} (hkept : Kept h' l)
    (hvalid : ∀ x ∈ l, x.Valid h) (hd : d.Valid h') (hnew : d.arr = h.arrays.length)
    (hheap : h.arrays ≠ []) : Kept h' (l ++ [d]) := by
  refine ⟨?_, ?_, ?_⟩
  · intro x hx
    rcases List.mem_append.mp hx with hx | hx
    · exact hkept.valid x hx
    · rw [List.mem_singleton.mp hx]
      exact hd
  · intro x hx
    rcases List.mem_append.mp hx with hx | hx
    · exact hkept.own x hx
    · rw [List.mem_singleton.mp hx, hnew]
      exact fun hzero => hheap (List.length_eq_zero_iff.mp hzero)
  · rw [List.map_append, List.map_singleton, List.nodup_append]
    refine ⟨hkept.apart, List.nodup_singleton _, ?_⟩
    intro a ha b hb hab
    obtain ⟨x, hx, rfl⟩ := List.mem_map.mp ha
    have hlt := (hvalid x hx).alloc
    rw [List.mem_singleton.mp hb, hnew] at hab
    omega

/-! ## The steps of the session -/

theorem left_of_pending (hflag : s.pendingFlag = true) (hfree : s.flushing = none) :
    s.left = s.pendingBuf := by
  rw [State.left, hfree]
  exact if_pos hflag

theorem left_of_attached (hflag : s.pendingFlag = false) (hfree : s.flushing = none) :
    s.left = [] := by
  rw [State.left, hfree]
  exact if_neg (by rw [hflag]; nofun)

/-- While packets are pending they are all that arrived, up to the limit. -/
theorem Inv.pending_bytes (hinv : Inv id size s) (hflag : s.pendingFlag = true) :
    s.pendingBuf.map (Slice.bytes s.heap) =
      s.before.take kMaxUdpForwardPendingPackets := by
  obtain ⟨hgiven, hafter, hfree⟩ := hinv.pending hflag
  have horder := hinv.order
  rw [left_of_pending hflag hfree, hgiven, State.due, hafter, List.append_nil] at horder
  exact horder

theorem Inv.pending_length (hinv : Inv id size s) (hflag : s.pendingFlag = true) :
    s.pendingBuf.length = min kMaxUdpForwardPendingPackets s.before.length := by
  have h := congrArg List.length (hinv.pending_bytes hflag)
  rwa [List.length_map, List.length_take] at h

/-- The invariant before the attach, from what is pending. -/
theorem Inv.of_pending (hvalid : (buffer size).Valid s.heap)
    (hpacket : ∀ n content, s.packet = some (n, content) →
      n ≤ size ∧ ((buffer size).upTo n).bytes s.heap = content) (hflag : s.pendingFlag = true)
    (hidle : s.given = [] ∧ s.after = [] ∧ s.flushing = none) (hkept : Kept s.heap s.pendingBuf)
    (hbytes : s.pendingBuf.map (Slice.bytes s.heap) =
      s.before.take kMaxUdpForwardPendingPackets) : Inv id size s := by
  obtain ⟨hgiven, hafter, hfree⟩ := hidle
  have hleft := left_of_pending hflag hfree
  refine ⟨hvalid, hpacket, ?_, ?_, fun _ => ⟨hgiven, hafter, hfree⟩, ?_, ?_⟩
  · rw [hleft]
    exact hkept
  · rw [hleft, hgiven, State.due, hafter, List.append_nil]
    exact hbytes
  · intro hflushing
    exact absurd hfree hflushing
  · rw [hgiven]
    nofun

/-- The invariant after the attach, from what was given. -/
theorem Inv.of_attached (hvalid : (buffer size).Valid s.heap)
    (hpacket : ∀ n content, s.packet = some (n, content) →
      n ≤ size ∧ ((buffer size).upTo n).bytes s.heap = content) (hflag : s.pendingFlag = false)
    (hfree : s.flushing = none) (hgiven : s.given.map Given.packet = s.due)
    (hdatagrams : ∀ g ∈ s.given, ∀ d, g.datagram = some d → d = g.packet ++ putUint64 id) :
    Inv id size s := by
  have hleft := left_of_attached hflag hfree
  refine ⟨hvalid, hpacket, ?_, ?_, ?_, ?_, hdatagrams⟩
  · rw [hleft]
    exact ⟨nofun, nofun, List.nodup_nil⟩
  · rw [hleft, List.map_nil, List.append_nil]
    exact hgiven
  · intro hpending
    rw [hflag] at hpending
    cases hpending
  · intro hflushing
    exact absurd hfree hflushing

/-- A packet over the limit is dropped. -/
theorem Inv.dropped (hinv : Inv id size s) (hflag : s.pendingFlag = true)
    (hfull : s.pendingBuf.length ≥ kMaxUdpForwardPendingPackets) (content : Bytes) :
    Inv id size { s with packet := none, before := s.before ++ [content] } := by
  have hlen := hinv.pending_length hflag
  refine ⟨hinv.valid, nofun, hinv.kept, ?_, hinv.pending, hinv.flushing, hinv.datagrams⟩
  show s.given.map Given.packet ++ s.left.map (Slice.bytes s.heap) =
    (s.before ++ [content]).take kMaxUdpForwardPendingPackets ++ s.after
  rw [List.take_append_of_le_length (by omega)]
  exact hinv.order

/-- A packet below the limit is copied. -/
theorem Inv.copied (hinv : Inv id size s) (hflag : s.pendingFlag = true)
    (hroom : ¬ s.pendingBuf.length ≥ kMaxUdpForwardPendingPackets) {n : Nat} {content : Bytes}
    (hpacket : s.packet = some (n, content)) :
    Inv id size { s with
      heap := (cloneWithRoom s.heap ((buffer size).upTo n)).2
      pendingBuf := s.pendingBuf ++ [(cloneWithRoom s.heap ((buffer size).upTo n)).1]
      packet := none
      before := s.before ++ [content] } := by
  obtain ⟨hgiven, hafter, hfree⟩ := hinv.pending hflag
  obtain ⟨hn, hcontent⟩ := hinv.packet n content hpacket
  obtain ⟨hle, hvalid, hbytes, harr⟩ := cloneWithRoom_spec (hinv.valid.upTo hn)
  have hlen := hinv.pending_length hflag
  have hkept := hinv.kept
  rw [left_of_pending hflag hfree] at hkept
  have hmono := hkept.mono (cloneWithRoom s.heap ((buffer size).upTo n)).2
    (fun d hd => ⟨(hkept.valid d hd).mono hle, (hkept.valid d hd).bytes_mono hle⟩)
  have hheap : s.heap.arrays ≠ [] := by
    intro hnil
    have halloc := hinv.valid.alloc
    rw [hnil] at halloc
    cases halloc
  refine Inv.of_pending (hinv.valid.mono hle) nofun hflag ⟨hgiven, hafter, hfree⟩
    (hmono.1.concat hkept.valid hvalid harr hheap) ?_
  show (s.pendingBuf ++ [_]).map _ = (s.before ++ [content]).take kMaxUdpForwardPendingPackets
  rw [List.map_append, hmono.2, hinv.pending_bytes hflag, List.map_singleton, hbytes, hcontent,
    List.take_of_length_le (by omega),
    List.take_of_length_le (by rw [List.length_append, List.length_singleton]; omega)]

variable (id) in
/-- What the forward connection is given, and what it makes of it. -/
theorem doWrite_given (hdata : data.Valid s.heap) (sends : Bool) :
    (doWrite id s data sends).given.map Given.packet =
        s.given.map Given.packet ++ [data.bytes s.heap] ∧
      ((∀ g ∈ s.given, ∀ d, g.datagram = some d → d = g.packet ++ putUint64 id) →
        ∀ g ∈ (doWrite id s data sends).given, ∀ d, g.datagram = some d →
          d = g.packet ++ putUint64 id) := by
  refine ⟨by rw [doWrite, List.map_append]; rfl, ?_⟩
  intro hold g hg d hd
  rcases List.mem_append.mp hg with hg | hg
  · exact hold g hg d hd
  · rw [List.mem_singleton.mp hg] at hd ⊢
    cases sends with
    | false => cases hd
    | true =>
      cases hd
      exact (append_result hdata (putUint64 id) 0).2

variable (id) in
/-- `doWrite` leaves the slices in other arrays alone. -/
theorem doWrite_keeps {data t : Slice} (hdata : data.Valid s.heap) (sends : Bool)
    (ht : t.Valid s.heap) :
    t.Valid (doWrite id s data sends).heap ∧
      (t.arr ≠ data.arr → t.bytes (doWrite id s data sends).heap = t.bytes s.heap) := by
  cases sends with
  | false => exact ⟨ht, fun _ => rfl⟩
  | true =>
    exact ⟨append_valid hdata _ _ ht, fun hne =>
      append_keeps hdata _ _ ht (fun _ heq => absurd heq hne)⟩

/-- A packet that arrives after the attach. -/
theorem Inv.direct (hinv : Inv id size s) (hflag : s.pendingFlag = false)
    (hfree : s.flushing = none) {n : Nat} {content : Bytes} (hpacket : s.packet = some (n, content))
    (sends : Bool) :
    Inv id size { doWrite id s ((buffer size).upTo n) sends with
      packet := none
      after := s.after ++ [content] } := by
  obtain ⟨hn, hcontent⟩ := hinv.packet n content hpacket
  have hdata : ((buffer size).upTo n).Valid s.heap := hinv.valid.upTo hn
  obtain ⟨hgiven, hdatagrams⟩ := doWrite_given id hdata sends
  have horder := hinv.order
  rw [left_of_attached hflag hfree, List.map_nil, List.append_nil] at horder
  refine Inv.of_attached (doWrite_keeps id hdata sends hinv.valid).1 nofun hflag hfree ?_
    (hdatagrams hinv.datagrams)
  show (doWrite id s _ sends).given.map Given.packet =
    s.before.take kMaxUdpForwardPendingPackets ++ (s.after ++ [content])
  rw [hgiven, horder, hcontent, State.due, List.append_assoc]

/-- One packet of the flush: the ones behind it are in other arrays. -/
theorem Inv.flush (hinv : Inv id size s) {rest : List Slice}
    (hflushing : s.flushing = some (data :: rest)) (sends : Bool) :
    Inv id size { doWrite id s data sends with flushing := some rest } := by
  have hleft : s.left = data :: rest := by rw [State.left, hflushing]
  have hkept := hinv.kept
  rw [hleft] at hkept
  have hdata := hkept.valid data List.mem_cons_self
  have hown := hkept.own data List.mem_cons_self
  obtain ⟨hgiven, hdatagrams⟩ := doWrite_given id hdata sends
  obtain ⟨hhead, hapart⟩ := List.nodup_cons.mp hkept.apart
  have hrest : Kept s.heap rest :=
    ⟨fun d hd => hkept.valid d (List.mem_cons_of_mem _ hd),
     fun d hd => hkept.own d (List.mem_cons_of_mem _ hd), hapart⟩
  have hmono := hrest.mono (doWrite id s data sends).heap (by
    intro d hd
    obtain ⟨hvalid, hbytes⟩ := doWrite_keeps id hdata sends (hrest.valid d hd)
    exact ⟨hvalid, hbytes (fun heq => hhead (heq ▸ List.mem_map_of_mem hd))⟩)
  refine ⟨(doWrite_keeps id hdata sends hinv.valid).1, ?_, hmono.1, ?_, ?_, ?_,
    hdatagrams hinv.datagrams⟩
  · intro n content hpacket
    obtain ⟨hn, hcontent⟩ := hinv.packet n content hpacket
    have hkeeps := (doWrite_keeps id hdata sends (hinv.valid.upTo hn)).2
    refine ⟨hn, ?_⟩
    rw [← hcontent]
    exact hkeeps (fun heq => hown heq.symm)
  · show (doWrite id s data sends).given.map Given.packet ++
      rest.map (Slice.bytes (doWrite id s data sends).heap) = s.due
    have horder := hinv.order
    rw [hleft] at horder
    rw [hgiven, hmono.2, List.append_assoc]
    exact horder
  · intro hpending
    obtain ⟨-, -, hfree⟩ := hinv.pending hpending
    rw [hflushing] at hfree
    cases hfree
  · intro _
    exact hinv.flushing (by rw [hflushing]; nofun)

theorem Inv.next {s s' : State} {l : Label} (hinv : Inv id size s)
    (h : next id size s l = some s') : Inv id size s' := by
  cases l with
  | read bs =>
    obtain ⟨⟨-, hfit⟩, rfl⟩ := enabledIf_eq_some h
    exact hinv.read hfit
  | other pos bs =>
    obtain ⟨⟨hpacket, hfit⟩, rfl⟩ := enabledIf_eq_some h
    exact hinv.other hpacket hfit
  | writePacket sends =>
    simp only [UdpPending.next] at h
    split at h
    · cases h
    · next n content hpacket =>
      obtain ⟨hfree, rfl⟩ := enabledIf_eq_some h
      unfold writePacket
      by_cases hflag : s.pendingFlag = true
      · by_cases hfull : s.pendingBuf.length ≥ kMaxUdpForwardPendingPackets
        · simp only [if_pos hflag, if_pos hfull]
          exact hinv.dropped hflag hfull content
        · simp only [if_pos hflag, if_neg hfull]
          exact hinv.copied hflag hfull hpacket
      · simp only [if_neg hflag]
        exact hinv.direct (Bool.eq_false_of_not_eq_true hflag) hfree hpacket sends
  | attachStream =>
    obtain ⟨⟨hfree, hflag⟩, rfl⟩ := enabledIf_eq_some h
    obtain ⟨hgiven, hafter, -⟩ := hinv.pending hflag
    -- `pendingBuf` is handed to the flush as it is
    have hkept := hinv.kept
    have horder := hinv.order
    rw [left_of_pending hflag hfree] at hkept horder
    exact ⟨hinv.valid, hinv.packet, hkept, horder, nofun, fun _ => hafter, hinv.datagrams⟩
  | flush sends =>
    simp only [UdpPending.next] at h
    split at h
    · next data rest hflushing =>
      cases h
      exact hinv.flush hflushing sends
    · cases h
  | attached =>
    obtain ⟨hflushing, rfl⟩ := enabledIf_eq_some h
    -- while the flag is up there is no flush that could end
    have hflag : s.pendingFlag = false := by
      cases hflag : s.pendingFlag with
      | false => rfl
      | true =>
        rw [(hinv.pending hflag).2.2] at hflushing
        cases hflushing
    have hleft : s.left = [] := by rw [State.left, hflushing]
    have horder := hinv.order
    rw [hleft] at horder
    rw [List.map_nil, List.append_nil] at horder
    exact Inv.of_attached hinv.valid hinv.packet hflag rfl horder hinv.datagrams

theorem inv_start : Inv id size (start size) := by
  have hlen : (List.replicate size (0 : UInt8)).length = size := List.length_replicate
  refine ⟨⟨Nat.zero_lt_one, Nat.le_refl _, ?_⟩, nofun, ⟨nofun, nofun, List.nodup_nil⟩, rfl,
    fun _ => ⟨rfl, rfl, rfl⟩, ?_, nofun⟩
  · show 0 + size ≤ (List.replicate size (0 : UInt8)).length
    omega
  · intro hflushing
    exact absurd rfl hflushing

theorem inv_of_reachable (hs : (sessionRuns id size).Reachable s) : Inv id size s :=
  System.invariant_ofStep inv_start (fun _ _ _ h => h.next) hs

/-! ## The flush ends -/

/-- How many steps `attachStream` has left. -/
def State.toFlush (s : State) : Nat :=
  match s.flushing with
  | none => 0
  | some rest => rest.length + 1

/-- The steps of `attachStream` after its start. -/
def Label.ofAttach : Label → Prop
  | .flush _ => True
  | .attached => True
  | _ => False

variable (id) in
/-- The loop of `attachStream` can always go on, whatever the datagrams do, and it changes
    nothing about the arrivals. -/
theorem flush_step (sends : Bool) (hflushing : s.flushing ≠ none) :
    ∃ l s', l.ofAttach ∧ (sessionRuns id size).step s l s' ∧
      s'.due = s.due ∧ s'.pendingFlag = s.pendingFlag ∧ s'.toFlush < s.toFlush := by
  cases hrest : s.flushing with
  | none => exact absurd hrest hflushing
  | some rest =>
    have hmeasure : s.toFlush = rest.length + 1 := by rw [State.toFlush, hrest]
    cases rest with
    | nil =>
      refine ⟨.attached, _, trivial, if_pos hrest, rfl, rfl, ?_⟩
      rw [hmeasure]
      exact Nat.zero_lt_succ _
    | cons data rest =>
      refine ⟨.flush sends, { doWrite id s data sends with flushing := some rest }, trivial, ?_,
        rfl, rfl, ?_⟩
      · show next id size s (.flush sends) = _
        simp only [UdpPending.next, hrest]
      · rw [hmeasure]
        exact Nat.lt_succ_self _

variable (id) in
theorem attachStream_ends (s : State) :
    ∃ ls s', (∀ l ∈ ls, l.ofAttach) ∧ (sessionRuns id size).Run s ls s' ∧
      (s'.due = s.due ∧ s'.pendingFlag = s.pendingFlag) ∧ s'.flushing = none := by
  apply System.exists_run_of_measure _ State.toFlush _ ⟨rfl, rfl⟩
  rintro t ⟨hdue, hflag⟩ hflushing
  obtain ⟨l, t', hl, hstep, hdue', hflag', hlt⟩ := flush_step id true hflushing
  exact ⟨l, t', hl, hstep, ⟨hdue'.trans hdue, hflag'.trans hflag⟩, hlt⟩

/-! ## What is given to the forward connection -/

/-- Whatever arrives before, during and after the attach, the forward connection is given the
    packets that are due, in their order, once each and with the bytes that were read.  All of
    them have been given whenever `attachStream` is not in its loop, which it always leaves.
    The datagrams are the packets with their tag. -/
theorem given_in_arrival_order {s : State} (hs : (sessionRuns id size).Reachable s) :
    s.given.map Given.packet <+: s.due ∧
      (s.pendingFlag = false → s.flushing = none → s.given.map Given.packet = s.due) ∧
      (s.pendingFlag = false → ∃ ls s', (∀ l ∈ ls, l.ofAttach) ∧
        (sessionRuns id size).Run s ls s' ∧ s'.due = s.due ∧
        s'.given.map Given.packet = s.due) ∧
      ∀ g ∈ s.given, ∀ d, g.datagram = some d → d = g.packet ++ putUint64 id := by
  have hall : ∀ t, (sessionRuns id size).Reachable t → t.pendingFlag = false →
      t.flushing = none → t.given.map Given.packet = t.due := by
    intro t ht hflag hfree
    have horder := (inv_of_reachable ht).order
    rwa [left_of_attached hflag hfree, List.map_nil, List.append_nil] at horder
  have hinv := inv_of_reachable hs
  refine ⟨⟨_, hinv.order⟩, hall s hs, ?_, hinv.datagrams⟩
  intro hflag
  obtain ⟨ls, s', hls, hrun, ⟨hdue, hflag'⟩, hfree⟩ := attachStream_ends id s
  have hgiven := hall s' (hrun.reachable hs) (hflag'.trans hflag) hfree
  exact ⟨ls, s', hls, hrun, hdue, hgiven.trans hdue⟩

/-- Two packets before the attach, one read while the first is flushed. -/
theorem flushed_while_reading :
    ∃ s, (sessionRuns 7 4).Reachable s ∧ s.flushing = none ∧
      s.given.map Given.packet = [[1, 2, 3, 4], [5], [6, 7]] ∧
      [[1, 2, 3, 4], [5], [6, 7]] = s.due := by
  obtain ⟨s, hrun, hflag, hfree, hgiven⟩ : ∃ s, runLabels (next 7 4) (start 4)
      [.read [1, 2, 3, 4], .writePacket true, .read [5], .writePacket true, .attachStream,
        .flush true, .read [6, 7], .flush false, .attached, .writePacket true] = some s ∧
      s.pendingFlag = false ∧ s.flushing = none ∧
      s.given.map Given.packet = [[1, 2, 3, 4], [5], [6, 7]] :=
    exists_of_runLabels (by decide +kernel)
  have hs : (sessionRuns 7 4).Reachable s :=
    .of_runLabels (fun _ _ _ h => h) (.init rfl) hrun
  exact ⟨s, hs, hfree, hgiven,
    hgiven.symm.trans ((given_in_arrival_order hs).2.1 hflag hfree)⟩

end UdpPending
