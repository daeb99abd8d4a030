import Tssh.Framework.BigEndian
import Tssh.Framework.Stream
import Mathlib.Data.List.TakeWhile

/-! # Packets on a Stream

    UDP packets that cannot go out as datagrams are sent on a stream, each with a
    two-byte length before it (`sendUdpPacket`, `recvUdpPacket` in `tsshd/proxy.go`).
    `packetConn.Write` (`tsshd/datagram.go`) takes this way when there is no datagram
    forwarder or when it does not take the packet; the other side reads the packets back
    in a loop with a buffer of 65535 bytes.

    * `packetCodec`: packets that fit into the length field come out as they went in.
    * `packets_framed_iff`: and only those do.  The length of a longer packet is cut to
      sixteen bits without an error.
-/

open Go

namespace Packets

/-! ## Definitions -/

inductive PacketError where
  | readLength
  | lengthOutOfRange (length buffer : Nat)
  | readData
  deriving DecidableEq, Repr

/-- The bytes `sendUdpPacket` writes: `uint16(len(data))` and the data. -/
def packetBytes (data : Bytes) : Bytes := putUint16 (UInt16.ofNat data.length) ++ data

/-- `sendUdpPacket`; `false` is an error. -/
def sendUdpPacket (conn : Writer) (data : Bytes) : Bool × Writer := conn.writeAll (packetBytes data)

/-- `recvUdpPacket` with a buffer of the given length. -/
def recvUdpPacket (buffer : Nat) (conn : Reader) : Except PacketError Bytes × Reader :=
  attempt (conn.readFull 2) .readLength fun buf conn =>
    if (uint16 buf).toNat > buffer then
      (.error (.lengthOutOfRange (uint16 buf).toNat buffer), conn)
    else
      attempt (conn.readFull (uint16 buf).toNat) .readData fun data conn => (.ok data, conn)

/-- What `packetConn.Write` finds: whether the peer is timed out, whether it comes back, and
    the answer of the datagram forwarder if there is one. -/
structure Peer where
  isTimeout : Bool
  reconnects : Bool
  sendDatagram : Option Bool

/-- `packetConn.Write`; `false` is an error. -/
def write (conn : Writer) (peer : Peer) (buf : Bytes) : Bool × Writer :=
  if peer.isTimeout && !peer.reconnects then (false, conn)
  else if peer.sendDatagram = some true then (true, conn)
  else sendUdpPacket conn buf

/-- Write the packets one after another, and note for which of them `Write` succeeded. -/
def writes : Writer → List (Peer × Bytes) → List (Bytes × Bool) × Writer
  | conn, [] => ([], conn)
  | conn, (peer, buf) :: rest =>
    let (ok, conn) := write conn peer buf
    let (done, conn) := writes conn rest
    ((buf, ok) :: done, conn)

/-- The longest packet that the length field can describe, and the size of the buffer the
    peer reads into. -/
def maxPacket : Nat := 0xffff

/-! ## Receiving -/

theorem toNat_uint16_length {data : Bytes} (h : data.length ≤ maxPacket) :
    (UInt16.ofNat data.length).toNat = data.length := by
  rw [UInt16.toNat_ofNat']
  exact Nat.mod_eq_of_lt (Nat.lt_succ_of_le h)

theorem recvUdpPacket_of_append {conn : Reader} {data t : Bytes} (hlen : data.length ≤ maxPacket)
    (h : conn.rest = packetBytes data ++ t) :
    ∃ conn', recvUdpPacket maxPacket conn = (.ok data, conn') ∧ conn'.rest = t := by
  rw [packetBytes, List.append_assoc] at h
  obtain ⟨r₁, htwo, hrest⟩ := Reader.readFull_of_append h
  rw [length_putUint16] at htwo
  obtain ⟨r₂, hfull, ht⟩ := Reader.readFull_of_append hrest
  refine ⟨r₂, ?_, ht⟩
  rw [recvUdpPacket, htwo, attempt_some, uint16_putUint16, toNat_uint16_length hlen,
    if_neg (by omega), hfull, attempt_some]

/-- A packet that is cut off is an error. -/
theorem recvUdpPacket_of_short {conn : Reader} {data : Bytes} (hlen : data.length ≤ maxPacket)
    (hpre : conn.rest <+: packetBytes data) (hne : conn.rest ≠ packetBytes data) :
    ∃ e conn', recvUdpPacket maxPacket conn = (.error e, conn') := by
  rcases conn.readFull_cases 2 with ⟨_, r₁, htwo, _⟩ | ⟨buf, r₁, htwo, htwolen, hrest⟩
  · exact ⟨.readLength, r₁, by rw [recvUdpPacket, htwo, attempt_none]⟩
  · rw [hrest, packetBytes] at hpre hne
    have hbuf : buf = putUint16 (UInt16.ofNat data.length) :=
      (List.prefix_of_prefix_length_le ((List.prefix_append _ _).trans hpre)
        (List.prefix_append _ _) (by simp [htwolen])).eq_of_length (by simp [htwolen])
    subst hbuf
    have hbody := (List.prefix_append_right_inj _).mp hpre
    have hlt : r₁.rest.length < data.length := by
      rcases Nat.lt_or_ge r₁.rest.length data.length with hlt | hge
      · exact hlt
      · exact absurd (by rw [hbody.eq_of_length_le hge]) hne
    obtain ⟨r₂, hfull, _⟩ := Reader.readFull_of_short hlt
    refine ⟨.readData, r₂, ?_⟩
    rw [recvUdpPacket, htwo, attempt_some, uint16_putUint16, toNat_uint16_length hlen,
      if_neg (by omega), hfull, attempt_none]

/-- Packets with their length as a frame codec. -/
def packetCodec : FrameCodec Bytes where
  enc := packetBytes
  recv := fun conn =>
    match recvUdpPacket maxPacket conn with
    | (.error _, conn) => (none, conn)
    | (.ok data, conn) => (some data, conn)
  valid := fun data => data.length ≤ maxPacket
  enc_ne_nil := by
    intro data _ h
    have hlen := congrArg List.length h
    simp [packetBytes] at hlen
  recv_eof := by
    intro conn hconn
    obtain ⟨r, htwo, _⟩ := Reader.readFull_of_short (r := conn) (n := 2) (by simp [hconn])
    rw [recvUdpPacket, htwo, attempt_none]
  recv_enc := by
    intro conn data t hlen h
    obtain ⟨conn', hrecv, ht⟩ := recvUdpPacket_of_append hlen h
    exact ⟨conn', by rw [hrecv], ht⟩
  recv_short := by
    intro conn data hlen hpre hne
    obtain ⟨e, conn', hrecv⟩ := recvUdpPacket_of_short hlen hpre hne
    rw [hrecv]

/-- The peer's loop: receive packets until the first error. -/
def recvPackets (conn : Reader) : List Bytes := packetCodec.recvAll conn

/-! ## Writing -/

/-- A `Write` on the stream path adds the bytes of the packet, or reports an error. -/
theorem write_cases (conn : Writer) {peer : Peer} (hpeer : peer.sendDatagram ≠ some true)
    (buf : Bytes) :
    (∃ conn', write conn peer buf = (true, conn') ∧ conn'.sent = conn.sent ++ packetBytes buf) ∨
    ∃ conn' part, write conn peer buf = (false, conn') ∧ conn'.sent = conn.sent ++ part := by
  rw [write]
  by_cases hgone : peer.isTimeout && !peer.reconnects
  · exact .inr ⟨conn, [], by rw [if_pos hgone], by simp⟩
  · rw [if_neg hgone, if_neg hpeer, sendUdpPacket]
    rcases conn.writeAll_cases (packetBytes buf) with ⟨w, h, hsent⟩ | ⟨w, part, h, _, hsent⟩
    · exact .inl ⟨w, h, hsent⟩
    · exact .inr ⟨w, part, h, hsent⟩

/-- The packets that were written before the first error. -/
def beforeError (done : List (Bytes × Bool)) : List Bytes := (done.takeWhile (·.2)).map (·.1)

/-- **What is on the stream**: the frames of the packets before the first error, then
    whatever was written from there on; nothing more if there was no error. -/
theorem writes_spec (ws : List (Peer × Bytes)) (hws : ∀ w ∈ ws, w.1.sendDatagram ≠ some true)
    (conn : Writer) :
    (writes conn ws).1.map (·.1) = ws.map (·.2) ∧
    ∃ t, (writes conn ws).2.sent =
        conn.sent ++ (beforeError (writes conn ws).1).flatMap packetBytes ++ t ∧
      ((∀ d ∈ (writes conn ws).1, d.2) → t = []) := by
  induction ws generalizing conn with
  | nil => exact ⟨rfl, [], by simp [writes, beforeError], fun _ => rfl⟩
  | cons w ws ih =>
    obtain ⟨peer, buf⟩ := w
    have ih := ih (fun w hw => hws w (List.mem_cons_of_mem _ hw))
    rcases write_cases conn (hws _ List.mem_cons_self) buf with
      ⟨conn', h, hsent⟩ | ⟨conn', part, h, hsent⟩
    · obtain ⟨hfst, t, ht, hall⟩ := ih conn'
      refine ⟨by simp [writes, h, hfst], t, ?_, ?_⟩
      · simp [writes, h, ht, hsent, beforeError]
      · intro hok
        exact hall (fun d hd => hok d (by simp [writes, h, hd]))
    · obtain ⟨hfst, t, ht, _⟩ := ih conn'
      refine ⟨by simp [writes, h, hfst],
        part ++ (beforeError (writes conn' ws).1).flatMap packetBytes ++ t, ?_, ?_⟩
      · simp [writes, h, ht, hsent, beforeError]
      · intro hok
        have hbuf := hok (buf, false) (by simp [writes, h])
        cases hbuf

/-! ## The round trip -/

/-- What sending packets on the stream should do, for the given circumstances and for a peer
    that reads `conn`: the packets before the first error arrive; a packet that does not fit
    into a frame is an error; and if those are the only errors, all other packets arrive. -/
def Framed (ws : List (Peer × Bytes)) (answers : List (Nat × Bool)) (conn : Reader) : Prop :=
  let done := (writes ⟨[], answers⟩ ws).1
  beforeError done <+: recvPackets conn ∧
  (∀ d ∈ done, d.1.length > maxPacket → d.2 = false) ∧
  ((∀ d ∈ done, d.2 = false → d.1.length > maxPacket) →
    recvPackets conn = (done.filter (·.2)).map (·.1))

/-- The packets arrive as they should in all circumstances: however the stream takes the
    bytes and whatever happens to the peer, and wherever the reads are split. -/
def AlwaysFramed (packets : List Bytes) : Prop :=
  ∀ (ws : List (Peer × Bytes)) (answers : List (Nat × Bool)) (conn : Reader),
    ws.map (·.2) = packets → (∀ w ∈ ws, w.1.sendDatagram ≠ some true) →
    conn.rest = (writes ⟨[], answers⟩ ws).2.sent → Framed ws answers conn

/-- A stream that takes everything reports no error. -/
theorem writes_open (sent : Bytes) (packets : List Bytes) :
    (writes ⟨sent, []⟩ (packets.map fun p => (⟨false, false, none⟩, p))).1 =
      packets.map fun p => (p, true) := by
  induction packets generalizing sent with
  | nil => rfl
  | cons p packets ih =>
    have hne : packetBytes p ≠ [] := by
      intro h
      have hlen := congrArg List.length h
      simp [packetBytes] at hlen
    have hwrite : write ⟨sent, []⟩ ⟨false, false, none⟩ p = (true, ⟨sent ++ packetBytes p, []⟩) := by
      obtain ⟨b, bs, hb⟩ := List.exists_cons_of_ne_nil hne
      simp [write, sendUdpPacket, Writer.writeAll, hb, Writer.writeLoop]
    simp [writes, hwrite, ih]

/-- **The packets are framed in all circumstances if and only if none of them is longer than
    the length field can say.** -/
theorem packets_framed_iff (packets : List Bytes) :
    AlwaysFramed packets ↔ ∀ p ∈ packets, p.length ≤ maxPacket := by
  constructor
  · -- on a stream that takes everything no error is reported, so no packet may be too long
    intro h p hp
    obtain ⟨_, hlong, _⟩ := h (packets.map fun p => (⟨false, false, none⟩, p)) []
      (Reader.ofPieces [(writes ⟨[], []⟩ (packets.map fun p => (⟨false, false, none⟩, p))).2.sent])
      (by simp) (by simp) (by simp [Reader.rest_ofPieces])
    by_contra hp'
    have herr := hlong (p, true) (by rw [writes_open]; exact List.mem_map.mpr ⟨p, hp, rfl⟩)
      (Nat.lt_of_not_le hp')
    cases herr
  · rintro hle ws answers conn rfl hws hconn
    obtain ⟨hfst, t, ht, hnil⟩ := writes_spec ws hws ⟨[], answers⟩
    have hfit : ∀ d ∈ (writes ⟨[], answers⟩ ws).1, d.1.length ≤ maxPacket := by
      intro d hd
      exact hle d.1 (hfst ▸ List.mem_map.mpr ⟨d, hd, rfl⟩)
    refine ⟨?_, ?_, ?_⟩
    · apply packetCodec.recvAll_complete
      · intro p hp
        obtain ⟨d, hd, rfl⟩ := List.mem_map.mp hp
        exact hfit d ((List.takeWhile_prefix _).mem hd)
      · exact ⟨t, by rw [hconn, ht]; rfl⟩
    · intro d hd hlong
      exact absurd (hfit d hd) (Nat.not_le_of_lt hlong)
    · -- nothing is too long, so there was no error at all
      intro honly
      have hok : ∀ d ∈ (writes ⟨[], answers⟩ ws).1, d.2 := by
        intro d hd
        by_contra herr
        exact Nat.not_le_of_lt (honly d hd (by simpa using herr)) (hfit d hd)
      have hbefore : beforeError (writes ⟨[], answers⟩ ws).1 =
          (writes ⟨[], answers⟩ ws).1.map (·.1) := by
        rw [beforeError, List.takeWhile_eq_self_iff.mpr hok]
      rw [List.filter_eq_self.mpr hok, ← hbefore]
      apply packetCodec.recvAll_of_eq
      · intro p hp
        rw [hbefore] at hp
        obtain ⟨d, hd, rfl⟩ := List.mem_map.mp hp
        exact hfit d hd
      · rw [hconn, ht, hnil hok, List.append_nil]
        rfl

/-- The frame of a packet of 65536 bytes that begins with two zeros. -/
theorem packetBytes_too_long {data : Bytes} (h : data.length = 65534) :
    packetBytes (0 :: 0 :: data) = [[], []].flatMap packetBytes ++ data := by
  have hzero : UInt16.ofNat (0 :: 0 :: data).length = 0 := by
    rw [List.length_cons, List.length_cons, h]
    rfl
  rw [packetBytes, hzero]
  rfl

/-- Such a packet is written without an error, and the peer takes its first bytes for two
    empty packets. -/
theorem recvPackets_too_long {data : Bytes} (h : data.length = 65534) (rest : List Bytes)
    {conn : Reader}
    (hconn : conn.rest = (writes ⟨[], []⟩
      (((0 :: 0 :: data) :: rest).map fun p => (⟨false, false, none⟩, p))).2.sent) :
    [[], []] <+: recvPackets conn := by
  obtain ⟨_, t, ht, _⟩ := writes_spec
    (((0 :: 0 :: data) :: rest).map fun p => (⟨false, false, none⟩, p)) (by simp) ⟨[], []⟩
  rw [writes_open, ← hconn] at ht
  apply packetCodec.recvAll_complete
  · simp [packetCodec]
  · simp [ht, beforeError, packetBytes_too_long h, packetCodec]

/-- A packet of 65536 zeros is written under the length 0: no error is reported for it, and
    the peer receives neither it nor the packet after it. -/
theorem packet_length_cut_to_zero :
    let packet : Bytes := 0 :: 0 :: List.replicate 65534 0
    let result := writes ⟨[], []⟩ ([packet, [7]].map fun p => (⟨false, false, none⟩, p))
    result.1 = [(packet, true), ([7], true)] ∧
    ∀ conn : Reader, conn.rest = result.2.sent →
      [[], []] <+: recvPackets conn ∧ recvPackets conn ≠ [packet, [7]] := by
  intro packet result
  refine ⟨writes_open [] _, ?_⟩
  intro conn hconn
  have hempty := recvPackets_too_long List.length_replicate [[7]] hconn
  refine ⟨hempty, ?_⟩
  intro heq
  rw [heq] at hempty
  exact absurd (List.cons_prefix_cons.mp hempty).1.symm (List.cons_ne_nil _ _)

end Packets
