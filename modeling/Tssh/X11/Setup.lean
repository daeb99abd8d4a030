import Tssh.Framework.Buffer
import Tssh.Framework.BigEndian
import Tssh.Framework.Stream

/-! # The Cookie of an X11 Connection

    An X11 client opens its connection with a setup header that carries the name of an
    authentication protocol and a cookie.  Programs on the server know a fake cookie only;
    `substituteX11Packet` reads the header from the forwarded channel, checks it against
    the fake cookie and puts the real one in its place.

    * **Model**: `substituteX11Packet` over a `Reader`, that is over any split of the
      stream into reads.  Every index and slice expression on the packet buffer is checked;
      `X11Error.outOfRange` is the run-time panic.
    * **Format**: `Setup` is a connection setup header in either byte order.
    * **Result**: the header is accepted exactly when it is a whole one with the expected
      name and the fake cookie, and then only the cookie changes in the stream.
-/

namespace X11

open Go

/-! ## The code -/

/-- What `substituteX11Packet` reads of the `xauthInfo`. -/
structure XauthInfo where
  xauthProto : Bytes
  realCookie : Bytes
  fakeCookie : Bytes
  deriving DecidableEq, Repr

/-- The errors, with what their texts show. -/
inductive X11Error where
  | readHeader
  | badByteOrder (b : UInt8)
  | protoLength (packet ours : Nat)
  | cookieLength (packet fake real : Nat)
  | tooLarge (n : Nat)
  | readPacket
  | protoMismatch (packet ours : Bytes)
  | cookieMismatch (packet ours : Bytes)
  /-- An index or a slice expression outside the buffer: the run-time panic. -/
  | outOfRange
  deriving DecidableEq, Repr

/-- The value of an index or slice expression, or the panic. -/
def checked {α : Type} : Option α → Except X11Error α
  | none => .error .outOfRange
  | some a => .ok a

/-- `s[:n]` of bytes that are not part of the buffer. -/
def firstBytes (s : Bytes) (n : Nat) : Option Bytes :=
  if n ≤ s.length then some (s.take n) else none

/-- `(n + 3) &^ 3`. -/
def padded (n : Nat) : Nat := (n + 3) / 4 * 4

/-- The lengths of the protocol name and of the cookie, in the byte order of the packet. -/
def headerLengths (packetBuffer : Buffer) : Except X11Error (Nat × Nat) := do
  let order ← checked (packetBuffer.get 0)
  if order = 0x42 then do
    let b6 ← checked (packetBuffer.get 6)
    let b7 ← checked (packetBuffer.get 7)
    let b8 ← checked (packetBuffer.get 8)
    let b9 ← checked (packetBuffer.get 9)
    return (b6.toNat <<< 8 + b7.toNat, b8.toNat <<< 8 + b9.toNat)
  else if order = 0x6c then do
    let b6 ← checked (packetBuffer.get 6)
    let b7 ← checked (packetBuffer.get 7)
    let b8 ← checked (packetBuffer.get 8)
    let b9 ← checked (packetBuffer.get 9)
    return (b6.toNat + b7.toNat <<< 8, b8.toNat + b9.toNat <<< 8)
  else throw (.badByteOrder order)

/-- The checks on the lengths; `fullHeaderLen` where they pass. -/
def checkLengths (packetBuffer : Buffer) (xauthData : XauthInfo) (protoLen cookieLen : Nat) :
    Except X11Error Nat :=
  if protoLen ≠ xauthData.xauthProto.length then
    throw (.protoLength protoLen xauthData.xauthProto.length)
  else if cookieLen ≠ xauthData.fakeCookie.length ∨ cookieLen ≠ xauthData.realCookie.length then
    throw (.cookieLength cookieLen xauthData.fakeCookie.length xauthData.realCookie.length)
  else if 12 + padded protoLen + padded cookieLen > packetBuffer.cap then
    throw (.tooLarge (12 + padded protoLen + padded cookieLen))
  else return 12 + padded protoLen + padded cookieLen

/-- Steps 4 to 6, on a buffer that holds the whole header. -/
def substituteCookie (packetBuffer : Buffer) (xauthData : XauthInfo) (protoLen cookieLen : Nat) :
    Except X11Error Bytes := do
  let protoBuffer ← checked (packetBuffer.window 12 (12 + protoLen))
  if protoBuffer ≠ xauthData.xauthProto then
    throw (.protoMismatch protoBuffer xauthData.xauthProto)
  else do
    let cookieOffset := 12 + padded protoLen
    let cookieBuffer ← checked (packetBuffer.window cookieOffset (cookieOffset + cookieLen))
    if cookieBuffer ≠ xauthData.fakeCookie then do
      let n := min 3 (cookieLen / 2)
      let packetPart ← checked (firstBytes cookieBuffer n)
      let ourPart ← checked (firstBytes xauthData.fakeCookie n)
      throw (.cookieMismatch packetPart ourPart)
    else do
      let packetBuffer ← checked
        (packetBuffer.copyAt cookieOffset (cookieOffset + cookieLen) xauthData.realCookie)
      return packetBuffer.bytes

/-- Step 2 on what the first read got: the filled buffer, the two lengths and
    `fullHeaderLen`. -/
def parseHeader (xauthData : XauthInfo) (got : Bytes) :
    Except X11Error (Buffer × Nat × Nat × Nat) := do
  let packetBuffer ← checked ((Buffer.make 4096).fill 0 4096 got)
  let (protoLen, cookieLen) ← headerLengths packetBuffer
  let fullHeaderLen ← checkLengths packetBuffer xauthData protoLen cookieLen
  return (packetBuffer, protoLen, cookieLen, fullHeaderLen)

def substituteX11Packet (channel : Reader) (xauthData : XauthInfo) :
    Except X11Error Bytes × Reader :=
  attempt (channel.readAtLeast 4096 12) .readHeader fun got channel =>
    match parseHeader xauthData got with
    | .error e => (.error e, channel)
    | .ok (packetBuffer, protoLen, cookieLen, fullHeaderLen) =>
      if packetBuffer.len < fullHeaderLen then
        attempt (channel.readFull (fullHeaderLen - packetBuffer.len)) .readPacket
          fun more channel =>
            (do
              let packetBuffer ← checked
                (packetBuffer.fill packetBuffer.len fullHeaderLen more)
              substituteCookie packetBuffer xauthData protoLen cookieLen, channel)
      else (substituteCookie packetBuffer xauthData protoLen cookieLen, channel)

/-! ## Connection setup headers -/

inductive ByteOrder where
  | msbFirst
  | lsbFirst
  deriving DecidableEq, Repr

namespace ByteOrder

/-- The first byte of a header in this order. -/
def byte : ByteOrder → UInt8
  | msbFirst => 0x42
  | lsbFirst => 0x6c

/-- A 16-bit length in this order. -/
def uint16 : ByteOrder → Nat → Bytes
  | msbFirst, n => beBytes 2 n
  | lsbFirst, n => (beBytes 2 n).reverse

end ByteOrder

/-- A connection setup header, but for the protocol name and the cookie, whose lengths it
    fixes. -/
structure Setup (protoLen cookieLen : Nat) where
  order : ByteOrder
  /-- An unused byte and the version of the X protocol. -/
  version : Bytes
  version_length : version.length = 5
  unused : Bytes
  unused_length : unused.length = 2
  protoPad : Bytes
  protoPad_length : protoLen + protoPad.length = padded protoLen
  cookiePad : Bytes
  cookiePad_length : cookieLen + cookiePad.length = padded cookieLen

/-- The fixed part of the header. -/
def Setup.fixed {p c : Nat} (s : Setup p c) : Bytes :=
  s.order.byte :: (s.version ++ s.order.uint16 p ++ s.order.uint16 c ++ s.unused)

/-- The whole header, with its protocol name and its cookie. -/
def Setup.bytes {p c : Nat} (s : Setup p c) (proto cookie : Bytes) : Bytes :=
  s.fixed ++ (proto ++ s.protoPad ++ (cookie ++ s.cookiePad))

/-! ## What the code accepts, on the stream -/

namespace ByteOrder

/-- The byte order a first byte stands for. -/
def ofByte (b : UInt8) : Option ByteOrder :=
  if b = 0x42 then some msbFirst else if b = 0x6c then some lsbFirst else none

/-- The number two bytes show in this order. -/
def nat : ByteOrder → UInt8 → UInt8 → Nat
  | msbFirst, a, b => beNat [a, b]
  | lsbFirst, a, b => beNat [b, a]

@[simp] theorem ofByte_byte (order : ByteOrder) : ofByte order.byte = some order := by
  cases order <;> rfl

theorem byte_of_ofByte {b : UInt8} {order : ByteOrder} (h : ofByte b = some order) :
    b = order.byte := by
  unfold ofByte at h
  split_ifs at h with hmsb hlsb
  · obtain rfl := Option.some.inj h
    exact hmsb
  · obtain rfl := Option.some.inj h
    exact hlsb

@[simp] theorem length_uint16 (order : ByteOrder) (n : Nat) : (order.uint16 n).length = 2 := by
  cases order <;> simp [uint16]

/-- The two bytes of a number are the only ones that show it. -/
theorem uint16_nat (order : ByteOrder) (a b : UInt8) : order.uint16 (order.nat a b) = [a, b] := by
  cases order with
  | msbFirst => exact beBytes_beNat [a, b]
  | lsbFirst =>
    have hpair : beBytes 2 (beNat [b, a]) = [b, a] := beBytes_beNat [b, a]
    rw [uint16, nat, hpair]
    rfl

theorem nat_uint16 {order : ByteOrder} {n : Nat} {a b : UInt8} (hn : n < 65536)
    (h : order.uint16 n = [a, b]) : order.nat a b = n := by
  cases order with
  | msbFirst =>
    have hpair : beBytes 2 n = [a, b] := h
    rw [nat, ← hpair, beNat_beBytes]
    exact Nat.mod_eq_of_lt hn
  | lsbFirst =>
    have hpair : beBytes 2 n = [b, a] := by
      rw [← List.reverse_reverse (beBytes 2 n)]
      exact congrArg List.reverse h
    rw [nat, ← hpair, beNat_beBytes]
    exact Nat.mod_eq_of_lt hn

end ByteOrder

section Accepts

variable (x : XauthInfo)

/-- Where the cookie starts. -/
def cookieOffset : Nat := 12 + padded x.xauthProto.length

/-- The length of the header. -/
def fullHeaderLen : Nat := cookieOffset x + padded x.fakeCookie.length

/-- The checks on the lengths, as conditions on the stream. -/
structure LengthsOk (w : Bytes) : Prop where
  lengths : ∃ order, ByteOrder.ofByte (w.getD 0 0) = some order ∧
    order.nat (w.getD 6 0) (w.getD 7 0) = x.xauthProto.length ∧
    order.nat (w.getD 8 0) (w.getD 9 0) = x.fakeCookie.length
  real_length : x.realCookie.length = x.fakeCookie.length
  fits : fullHeaderLen x ≤ 4096

/-- All checks of the code, as conditions on the stream. -/
structure Accepts (w : Bytes) : Prop extends LengthsOk x w where
  complete : fullHeaderLen x ≤ w.length
  proto : (w.drop 12).take x.xauthProto.length = x.xauthProto
  cookie : (w.drop (cookieOffset x)).take x.fakeCookie.length = x.fakeCookie

/-- The stream with the real cookie in the place of the one that was sent. -/
def replaced (w : Bytes) : Bytes :=
  w.take (cookieOffset x) ++ x.realCookie ++ w.drop (cookieOffset x + x.fakeCookie.length)

variable {x}

theorem le_padded (n : Nat) : n ≤ padded n := by
  unfold padded
  omega

theorem twelve_le_fullHeaderLen : 12 ≤ fullHeaderLen x := by
  unfold fullHeaderLen cookieOffset
  omega

/-! ### The steps of the code -/

variable {b : Buffer} {rest w : Bytes} {c : Nat}

/-- What a read left in the buffer is the start of the stream. -/
theorem getD_bytes (hw : w = b.bytes ++ rest) (hlen : 12 ≤ b.len) {i : Nat} (hi : i < 12) :
    b.get i = some (w.getD i 0) := by
  have hib : i < b.bytes.length := by
    rw [b.length_bytes]
    omega
  rw [Buffer.get, hw, List.getD_eq_getElem?_getD, List.getElem?_append_left hib,
    List.getElem?_eq_getElem hib]
  rfl

theorem headerLengths_eq (hw : w = b.bytes ++ rest) (hlen : 12 ≤ b.len) :
    headerLengths b =
      match ByteOrder.ofByte (w.getD 0 0) with
      | some order => .ok (order.nat (w.getD 6 0) (w.getD 7 0), order.nat (w.getD 8 0) (w.getD 9 0))
      | none => .error (.badByteOrder (w.getD 0 0)) := by
  have hget : ∀ i < 12, checked (b.get i) = .ok (w.getD i 0) := by
    intro i hi
    rw [getD_bytes hw hlen hi]
    rfl
  have hbind : ∀ {α β : Type} (a : α) (f : α → Except X11Error β), (Except.ok a >>= f) = f a :=
    fun _ _ => rfl
  have hshift : ∀ n : Nat, n <<< 8 = n * 256 := fun n => Nat.shiftLeft_eq n 8
  simp only [headerLengths, hget 0 (by omega), hget 6 (by omega), hget 7 (by omega),
    hget 8 (by omega), hget 9 (by omega), hbind, hshift]
  unfold ByteOrder.ofByte
  split_ifs with hmsb hlsb
  · simp [ByteOrder.nat, beNat, pure, Except.pure]
  · simp [ByteOrder.nat, beNat, pure, Except.pure, Nat.add_comm]
  · rfl

/-- The first bytes of the stream are those of the buffer. -/
theorem take_drop_bytes (hw : w = b.bytes ++ rest) {lo n : Nat} (h : lo + n ≤ b.len) :
    (b.bytes.drop lo).take n = (w.drop lo).take n := by
  have hlen := b.length_bytes
  rw [hw, List.drop_append_of_le_length (by omega),
    List.take_append_of_le_length (by rw [List.length_drop]; omega)]

/-- **Steps 4 to 6** stay inside the buffer once it holds the whole header; they accept the
    expected name with the fake cookie and change the cookie only. -/
theorem substituteCookie_cases (hw : w = b.bytes ++ rest) (hlen : fullHeaderLen x ≤ b.len)
    (hreal : x.realCookie.length = x.fakeCookie.length) :
    (∃ packet, substituteCookie b x x.xauthProto.length x.fakeCookie.length = .ok packet ∧
      (w.drop 12).take x.xauthProto.length = x.xauthProto ∧
      (w.drop (cookieOffset x)).take x.fakeCookie.length = x.fakeCookie ∧
      packet ++ rest = replaced x w) ∨
    ∃ e, substituteCookie b x x.xauthProto.length x.fakeCookie.length = .error e ∧
      e ≠ .outOfRange ∧
      ¬ ((w.drop 12).take x.xauthProto.length = x.xauthProto ∧
        (w.drop (cookieOffset x)).take x.fakeCookie.length = x.fakeCookie) := by
  have hproto := le_padded x.xauthProto.length
  have hcookie := le_padded x.fakeCookie.length
  unfold fullHeaderLen cookieOffset at hlen
  have hpwin : checked (b.window 12 (12 + x.xauthProto.length)) =
      .ok ((w.drop 12).take x.xauthProto.length) := by
    rw [Buffer.window_eq (by omega) (by omega), Nat.add_sub_cancel_left,
      take_drop_bytes hw (by omega)]
    rfl
  have hcwin : checked (b.window (12 + padded x.xauthProto.length)
      (12 + padded x.xauthProto.length + x.fakeCookie.length)) =
      .ok ((w.drop (cookieOffset x)).take x.fakeCookie.length) := by
    rw [Buffer.window_eq (by omega) (by omega), Nat.add_sub_cancel_left,
      take_drop_bytes hw (by omega)]
    rfl
  by_cases hp : (w.drop 12).take x.xauthProto.length = x.xauthProto
  · by_cases hc : (w.drop (cookieOffset x)).take x.fakeCookie.length = x.fakeCookie
    · left
      obtain ⟨b', hcopy, hbytes⟩ := b.copyAt_eq (12 + padded x.xauthProto.length)
        (12 + padded x.xauthProto.length + x.fakeCookie.length) x.realCookie (by omega) (by omega) (by omega)
      refine ⟨b'.bytes, ?_, hp, hc, ?_⟩
      · simp only [substituteCookie, hpwin, hcwin, hp, hc, hcopy, bind, Except.bind, ne_eq,
          not_true_eq_false, if_false]
        rfl
      · have hb := b.length_bytes
        rw [hbytes, replaced, hw, cookieOffset, List.take_append_of_le_length (by omega),
          List.drop_append_of_le_length (by omega), List.append_assoc, List.append_assoc]
    · right
      -- the text of this error shows the start of both cookies, which is inside them
      have hclen : ((w.drop (cookieOffset x)).take x.fakeCookie.length).length =
          x.fakeCookie.length := by
        have hwlen : b.len ≤ w.length := by
          rw [hw, List.length_append, b.length_bytes]
          omega
        rw [List.length_take, List.length_drop, cookieOffset]
        omega
      have hshown : min 3 (x.fakeCookie.length / 2) ≤ x.fakeCookie.length := by omega
      refine ⟨.cookieMismatch
        (((w.drop (cookieOffset x)).take x.fakeCookie.length).take (min 3 (x.fakeCookie.length / 2)))
        (x.fakeCookie.take (min 3 (x.fakeCookie.length / 2))), ?_, by simp, fun h => hc h.2⟩
      simp only [substituteCookie, hpwin, hcwin, hp, hc, bind, Except.bind, ne_eq,
        not_true_eq_false, not_false_eq_true, if_false, if_true]
      rw [firstBytes, hclen, if_pos hshown, firstBytes, if_pos hshown]
      rfl
  · right
    refine ⟨.protoMismatch ((w.drop 12).take x.xauthProto.length) x.xauthProto, ?_, by simp,
      fun h => hp h.1⟩
    simp only [substituteCookie, hpwin, hp, bind, Except.bind, ne_eq, not_false_eq_true, if_true]
    rfl

theorem checkLengths_cases (hcap : b.cap = 4096) (p c : Nat) :
    (checkLengths b x p c = .ok (fullHeaderLen x) ∧
      p = x.xauthProto.length ∧ c = x.fakeCookie.length ∧
      x.realCookie.length = x.fakeCookie.length ∧ fullHeaderLen x ≤ 4096) ∨
    ∃ e, checkLengths b x p c = .error e ∧ e ≠ .outOfRange ∧
      ¬ (p = x.xauthProto.length ∧ c = x.fakeCookie.length ∧
        x.realCookie.length = x.fakeCookie.length ∧ fullHeaderLen x ≤ 4096) := by
  unfold checkLengths
  split_ifs with hp hc hfits
  · exact .inr ⟨_, rfl, by simp, fun h => hp h.1⟩
  · refine .inr ⟨_, rfl, by simp, fun h => ?_⟩
    rcases hc with hc | hc
    · exact hc h.2.1
    · exact hc (h.2.1.trans h.2.2.1.symm)
  · refine .inr ⟨_, rfl, by simp, ?_⟩
    rintro ⟨rfl, rfl, _, hle⟩
    rw [hcap] at hfits
    exact absurd hle (by simpa [fullHeaderLen, cookieOffset] using hfits)
  · obtain rfl : p = x.xauthProto.length := not_not.mp hp
    obtain ⟨hfake, hreal⟩ := not_or.mp hc
    obtain rfl : c = x.fakeCookie.length := not_not.mp hfake
    refine .inl ⟨rfl, rfl, rfl, (not_not.mp hreal).symm, ?_⟩
    rw [hcap] at hfits
    simpa [fullHeaderLen, cookieOffset] using hfits

/-- **Step 2**: the lengths are those of the expected name and of both cookies, or the code
    stops with an error that is not a panic. -/
theorem parseHeader_cases {got w rest : Bytes} (hw : w = got ++ rest) (hmin : 12 ≤ got.length)
    (hmax : got.length ≤ 4096) :
    (∃ b, parseHeader x got =
        .ok (b, x.xauthProto.length, x.fakeCookie.length, fullHeaderLen x) ∧
      b.bytes = got ∧ b.cap = 4096 ∧ LengthsOk x w) ∨
    ∃ e, parseHeader x got = .error e ∧ e ≠ .outOfRange ∧ ¬ LengthsOk x w := by
  obtain ⟨b, hfill, hbytes, hlen, hcap⟩ := (Buffer.make 4096).fill_eq 0 4096 got (by omega) (by simp) (by omega)
  rw [List.take_zero, List.nil_append] at hbytes
  rw [Buffer.cap_make] at hcap
  have hwb : w = b.bytes ++ rest := by rw [hw, hbytes]
  have hheader := headerLengths_eq hwb (by omega)
  cases horder : ByteOrder.ofByte (w.getD 0 0) with
  | none =>
    right
    rw [horder] at hheader
    refine ⟨.badByteOrder (w.getD 0 0), ?_, by simp, ?_⟩
    · simp only [parseHeader, hfill, checked, hheader, bind, Except.bind]
    · rintro ⟨⟨order, h, _⟩, _, _⟩
      rw [horder] at h
      cases h
  | some order =>
    rw [horder] at hheader
    rcases checkLengths_cases (x := x) hcap (order.nat (w.getD 6 0) (w.getD 7 0))
      (order.nat (w.getD 8 0) (w.getD 9 0)) with ⟨hok, hp, hc, hreal, hfits⟩ | ⟨e, herr, hne, hnot⟩
    · left
      refine ⟨b, ?_, hbytes, hcap, ⟨order, horder, hp, hc⟩, hreal, hfits⟩
      rw [hp, hc] at hok
      simp only [parseHeader, hfill, checked, hheader, bind, Except.bind, hp, hc, hok]
      rfl
    · right
      refine ⟨e, ?_, hne, ?_⟩
      · simp only [parseHeader, hfill, checked, hheader, bind, Except.bind, herr]
      · rintro ⟨⟨order', h, hp, hc⟩, hreal, hfits⟩
        rw [horder] at h
        obtain rfl := Option.some.inj h
        exact hnot ⟨hp, hc, hreal, hfits⟩

/-- **Step 3**: the rest of the header is read, or the stream is too short for it. -/
theorem substituteX11Packet_parsed {channel r : Reader} {got : Bytes}
    (hread : channel.readAtLeast 4096 12 = (some got, r)) (hrest : channel.rest = got ++ r.rest)
    (hparse : parseHeader x got =
      .ok (b, x.xauthProto.length, x.fakeCookie.length, fullHeaderLen x)) (hbytes : b.bytes = got)
    (hcap : b.cap = 4096) (hfits : fullHeaderLen x ≤ 4096) :
    (∃ r', substituteX11Packet channel x = (.error .readPacket, r') ∧
      channel.rest.length < fullHeaderLen x) ∨
    ∃ b' r', substituteX11Packet channel x =
        (substituteCookie b' x x.xauthProto.length x.fakeCookie.length, r') ∧
      channel.rest = b'.bytes ++ r'.rest ∧ fullHeaderLen x ≤ b'.len := by
  have hblen : b.len = got.length := by rw [← hbytes, b.length_bytes]
  by_cases hmore : b.len < fullHeaderLen x
  · rcases r.readFull_cases (fullHeaderLen x - b.len) with
      ⟨hshort, r', hfull⟩ | ⟨more, r', hfull, hmorelen, hrest'⟩
    · left
      refine ⟨r', ?_, ?_⟩
      · simp only [substituteX11Packet, hread, attempt_some, hparse, hmore, if_true, hfull,
          attempt_none]
      · rw [hrest, List.length_append]
        omega
    · right
      obtain ⟨b', hfill, hbytes', hlen', _⟩ := b.fill_eq b.len (fullHeaderLen x) more
        (by omega) (by omega) (by omega)
      refine ⟨b', r', ?_, ?_, by omega⟩
      · simp only [substituteX11Packet, hread, attempt_some, hparse, hmore, if_true, hfull, hfill]
        rfl
      · have happend : b'.bytes = b.bytes ++ more := hbytes'
        rw [happend, hbytes, hrest, hrest', List.append_assoc]
  · right
    refine ⟨b, r, ?_, by rw [hrest, hbytes], by omega⟩
    simp only [substituteX11Packet, hread, attempt_some, hparse, hmore, if_false]

/-- **The whole function**: it accepts what `Accepts` says and then has replaced the cookie
    in the stream; otherwise its error is not a panic. -/
theorem substituteX11Packet_cases (channel : Reader) :
    (∃ packet channel', substituteX11Packet channel x = (.ok packet, channel') ∧
      Accepts x channel.rest ∧ packet ++ channel'.rest = replaced x channel.rest) ∨
    ∃ e channel', substituteX11Packet channel x = (.error e, channel') ∧
      e ≠ .outOfRange ∧ ¬ Accepts x channel.rest := by
  have htwelve := twelve_le_fullHeaderLen (x := x)
  rcases channel.readAtLeast_cases 4096 12 (by omega) with
    ⟨hshort, r, hread⟩ | ⟨got, r, hread, hmin, hmax, hrest⟩
  · right
    refine ⟨.readHeader, r, by rw [substituteX11Packet, hread, attempt_none], by simp, ?_⟩
    intro h
    have hcomplete := h.complete
    omega
  rcases parseHeader_cases (x := x) hrest hmin hmax with
    ⟨b, hparse, hbytes, hcap, hok⟩ | ⟨e, hparse, hne, hnot⟩
  · rcases substituteX11Packet_parsed hread hrest hparse hbytes hcap hok.fits with
      ⟨r', hshort, hlen⟩ | ⟨b', r', hsub, hw, hfull⟩
    · refine .inr ⟨_, r', hshort, by simp, ?_⟩
      intro h
      have hcomplete := h.complete
      omega
    · have hcomplete : fullHeaderLen x ≤ channel.rest.length := by
        rw [hw, List.length_append, b'.length_bytes]
        omega
      rcases substituteCookie_cases hw hfull hok.real_length with
        ⟨packet, hpacket, hp, hc, hreplaced⟩ | ⟨e, herr, hne, hnot⟩
      · exact .inl ⟨packet, r', by rw [hsub, hpacket], ⟨hok, hcomplete, hp, hc⟩, hreplaced⟩
      · exact .inr ⟨e, r', by rw [hsub, herr], hne, fun h => hnot ⟨h.proto, h.cookie⟩⟩
  · right
    refine ⟨e, r, by simp only [substituteX11Packet, hread, attempt_some, hparse], hne, ?_⟩
    exact fun h => hnot h.toLengthsOk

/-! ### Accepted streams are setup headers -/

theorem Setup.length_fixed {p c : Nat} (s : Setup p c) : s.fixed.length = 12 := by
  simp [Setup.fixed, s.version_length, s.unused_length]

/-- The header before the cookie. -/
def Setup.front {c : Nat} (s : Setup x.xauthProto.length c) : Bytes :=
  s.fixed ++ (x.xauthProto ++ s.protoPad)

theorem Setup.length_front (s : Setup x.xauthProto.length c) : s.front.length = cookieOffset x := by
  have hpad := s.protoPad_length
  simp only [Setup.front, List.length_append, s.length_fixed, cookieOffset]
  omega

/-- A stream that starts with a header, cut before and after the cookie. -/
theorem Setup.bytes_append (s : Setup x.xauthProto.length c) (cookie rest : Bytes) :
    s.bytes x.xauthProto cookie ++ rest = s.front ++ (cookie ++ (s.cookiePad ++ rest)) := by
  simp [Setup.bytes, Setup.front, List.append_assoc]

theorem Setup.length_bytes (s : Setup x.xauthProto.length x.fakeCookie.length) :
    (s.bytes x.xauthProto x.fakeCookie).length = fullHeaderLen x := by
  have hp := s.protoPad_length
  have hc := s.cookiePad_length
  simp only [Setup.bytes, List.length_append, s.length_fixed, fullHeaderLen, cookieOffset]
  omega

/-- The five bytes before the lengths and the two numbers, one by one. -/
theorem Setup.fixed_eq {p c : Nat} (s : Setup p c) :
    ∃ v₁ v₂ v₃ v₄ v₅ a b c' d u₁ u₂,
      s.fixed = [s.order.byte, v₁, v₂, v₃, v₄, v₅, a, b, c', d, u₁, u₂] ∧
      s.order.uint16 p = [a, b] ∧ s.order.uint16 c = [c', d] := by
  obtain ⟨v₁, v₂, v₃, v₄, v₅, hv⟩ : ∃ v₁ v₂ v₃ v₄ v₅, s.version = [v₁, v₂, v₃, v₄, v₅] := by
    match s.version, s.version_length with
    | [v₁, v₂, v₃, v₄, v₅], _ => exact ⟨v₁, v₂, v₃, v₄, v₅, rfl⟩
  obtain ⟨u₁, u₂, hu⟩ := List.length_eq_two.mp s.unused_length
  obtain ⟨a, b, hab⟩ := List.length_eq_two.mp (s.order.length_uint16 p)
  obtain ⟨c', d, hcd⟩ := List.length_eq_two.mp (s.order.length_uint16 c)
  refine ⟨v₁, v₂, v₃, v₄, v₅, a, b, c', d, u₁, u₂, ?_, hab, hcd⟩
  rw [Setup.fixed, hv, hu, hab, hcd]
  rfl

/-- A stream that starts with a header passes the checks. -/
theorem Setup.accepts (s : Setup x.xauthProto.length x.fakeCookie.length) (rest : Bytes)
    (hreal : x.realCookie.length = x.fakeCookie.length)
    (hfits : (s.bytes x.xauthProto x.fakeCookie).length ≤ 4096) :
    Accepts x (s.bytes x.xauthProto x.fakeCookie ++ rest) := by
  have hfull := s.length_bytes
  have hp := le_padded x.xauthProto.length
  have hc := le_padded x.fakeCookie.length
  have hsmall : fullHeaderLen x ≤ 4096 := hfull ▸ hfits
  have hdef : fullHeaderLen x =
    12 + padded x.xauthProto.length + padded x.fakeCookie.length := rfl
  refine ⟨⟨?_, hreal, hsmall⟩, ?_, ?_, ?_⟩
  · obtain ⟨v₁, v₂, v₃, v₄, v₅, a, b, c, d, u₁, u₂, hfixed, hab, hcd⟩ := s.fixed_eq
    rw [Setup.bytes, hfixed]
    refine ⟨s.order, s.order.ofByte_byte, ?_, ?_⟩
    · exact ByteOrder.nat_uint16 (by omega) hab
    · exact ByteOrder.nat_uint16 (by omega) hcd
  · rw [List.length_append, hfull]
    omega
  · rw [s.bytes_append, Setup.front, List.append_assoc, List.append_assoc, ← s.length_fixed,
      List.drop_left, List.take_left]
  · rw [s.bytes_append, ← s.length_front, List.drop_left, List.take_left]

/-- A field with its padding, cut out of what is left. -/
theorem take_pad_drop (l : Bytes) {n m : Nat} (h : n ≤ m) :
    l.take n ++ ((l.drop n).take (m - n) ++ l.drop m) = l := by
  have hdrop : l.drop m = (l.drop n).drop (m - n) := by
    rw [List.drop_drop]
    congr 1
    omega
  rw [hdrop, List.take_append_drop, List.take_append_drop]

theorem exists_twelve (h : 12 ≤ w.length) :
    ∃ b₀ b₁ b₂ b₃ b₄ b₅ b₆ b₇ b₈ b₉ b₁₀ b₁₁ t,
      w = [b₀, b₁, b₂, b₃, b₄, b₅, b₆, b₇, b₈, b₉, b₁₀, b₁₁] ++ t := by
  match hw : w.take 12, List.length_take_of_le h with
  | [b₀, b₁, b₂, b₃, b₄, b₅, b₆, b₇, b₈, b₉, b₁₀, b₁₁], _ =>
    refine ⟨b₀, b₁, b₂, b₃, b₄, b₅, b₆, b₇, b₈, b₉, b₁₀, b₁₁, w.drop 12, ?_⟩
    rw [← hw, List.take_append_drop]

/-- A stream that passes the checks starts with a header. -/
theorem Accepts.exists_setup (h : Accepts x w) :
    ∃ (s : Setup x.xauthProto.length x.fakeCookie.length) (rest : Bytes),
      w = s.bytes x.xauthProto x.fakeCookie ++ rest := by
  have hp := le_padded x.xauthProto.length
  have hc := le_padded x.fakeCookie.length
  have hdef : fullHeaderLen x =
    12 + padded x.xauthProto.length + padded x.fakeCookie.length := rfl
  obtain ⟨⟨⟨order, horder, hproto, hcookie⟩, _, _⟩, hcomplete, hname, hfake⟩ := h
  obtain ⟨b₀, b₁, b₂, b₃, b₄, b₅, b₆, b₇, b₈, b₉, b₁₀, b₁₁, t, rfl⟩ :=
    exists_twelve (w := w) (by omega)
  have htlen : padded x.xauthProto.length + padded x.fakeCookie.length ≤ t.length := by
    simp only [List.length_append, List.length_cons, List.length_nil] at hcomplete
    omega
  have hb₀ : b₀ = order.byte := ByteOrder.byte_of_ofByte horder
  have hplen : order.uint16 x.xauthProto.length = [b₆, b₇] := by
    rw [← hproto]
    exact order.uint16_nat b₆ b₇
  have hclen : order.uint16 x.fakeCookie.length = [b₈, b₉] := by
    rw [← hcookie]
    exact order.uint16_nat b₈ b₉
  -- the name with its padding, then the cookie with its own
  have hname' : t.take x.xauthProto.length = x.xauthProto := hname
  have hfake' : (t.drop (padded x.xauthProto.length)).take x.fakeCookie.length =
      x.fakeCookie := by
    have hoff : cookieOffset x = padded x.xauthProto.length + 12 := Nat.add_comm _ _
    rw [hoff] at hfake
    exact hfake
  refine ⟨{ order := order
            version := [b₁, b₂, b₃, b₄, b₅]
            version_length := rfl
            unused := [b₁₀, b₁₁]
            unused_length := rfl
            protoPad := (t.drop x.xauthProto.length).take
              (padded x.xauthProto.length - x.xauthProto.length)
            protoPad_length := by
              rw [List.length_take, List.length_drop]
              omega
            cookiePad := ((t.drop (padded x.xauthProto.length)).drop x.fakeCookie.length).take
              (padded x.fakeCookie.length - x.fakeCookie.length)
            cookiePad_length := by
              rw [List.length_take, List.length_drop, List.length_drop]
              omega },
          (t.drop (padded x.xauthProto.length)).drop (padded x.fakeCookie.length), ?_⟩
  have hcut := take_pad_drop (t.drop (padded x.xauthProto.length)) hc
  rw [hfake'] at hcut
  have ht := take_pad_drop t hp
  rw [hname', ← hcut] at ht
  rw [Setup.bytes_append, Setup.front, Setup.fixed, hplen, hclen, ← hb₀]
  conv_lhs => rw [← ht]
  simp

/-- Replacing the cookie in the stream replaces it in the header. -/
theorem Setup.replaced_bytes (s : Setup x.xauthProto.length x.fakeCookie.length) (rest : Bytes) :
    replaced x (s.bytes x.xauthProto x.fakeCookie ++ rest) =
      s.bytes x.xauthProto x.realCookie ++ rest := by
  have hend : cookieOffset x + x.fakeCookie.length = (s.front ++ x.fakeCookie).length := by
    rw [List.length_append, s.length_front]
  rw [replaced, hend, s.bytes_append, s.bytes_append, ← s.length_front, List.take_left,
    ← List.append_assoc s.front, List.drop_left, List.append_assoc]

/-- **The cookie of an X11 connection.**  Whatever the stream is and wherever its reads are
    split: no index or slice expression leaves the buffer; the packet is accepted exactly
    when the stream starts with a whole setup header of at most 4096 bytes with the expected
    protocol name and the fake cookie, both cookies being of one length; and then the packet
    and what is left of the stream are the stream with the real cookie in that header. -/
theorem substituteX11Packet_spec (channel : Reader) (x : XauthInfo) :
    (substituteX11Packet channel x).1 ≠ .error .outOfRange ∧
    ((∃ packet, (substituteX11Packet channel x).1 = .ok packet) ↔
      x.realCookie.length = x.fakeCookie.length ∧
      ∃ (s : Setup x.xauthProto.length x.fakeCookie.length) (rest : Bytes),
        channel.rest = s.bytes x.xauthProto x.fakeCookie ++ rest ∧
        (s.bytes x.xauthProto x.fakeCookie).length ≤ 4096) ∧
    ∀ packet, (substituteX11Packet channel x).1 = .ok packet →
      ∀ (s : Setup x.xauthProto.length x.fakeCookie.length) (rest : Bytes),
        channel.rest = s.bytes x.xauthProto x.fakeCookie ++ rest →
        packet ++ (substituteX11Packet channel x).2.rest =
          s.bytes x.xauthProto x.realCookie ++ rest := by
  rcases substituteX11Packet_cases (x := x) channel with
    ⟨packet, channel', hsub, hok, hreplaced⟩ | ⟨e, channel', hsub, hne, hnot⟩
  · rw [hsub]
    refine ⟨by simp, ⟨fun _ => ?_, fun _ => ⟨packet, rfl⟩⟩, ?_⟩
    · obtain ⟨s, rest, hw⟩ := hok.exists_setup
      exact ⟨hok.real_length, s, rest, hw, s.length_bytes ▸ hok.fits⟩
    · rintro _ ⟨⟩ s rest hw
      rw [hreplaced, hw, s.replaced_bytes]
  · rw [hsub]
    refine ⟨by simpa using hne, ⟨by simp, ?_⟩, by simp⟩
    rintro ⟨hreal, s, rest, hw, hfits⟩
    exact absurd (hw ▸ s.accepts rest hreal hfits) hnot

/-- A header with the low byte first, a two-byte name and a four-byte cookie, in three pieces;
    the byte after it stays in the stream. -/
example :
    (substituteX11Packet
      (.ofPieces [[0x6c, 0, 11, 0, 0, 0, 2], [0, 4, 0, 0, 0, 77, 73, 0], [0, 1, 2, 3, 4, 99]])
      ⟨[77, 73], [5, 6, 7, 8], [1, 2, 3, 4]⟩).1 =
    .ok [0x6c, 0, 11, 0, 0, 0, 2, 0, 4, 0, 0, 0, 77, 73, 0, 0, 5, 6, 7, 8] := by
  decide +kernel

end Accepts

end X11
