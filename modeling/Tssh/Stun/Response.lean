import Tssh.Framework.BigEndian
import Mathlib.Tactic.Common

/-! # STUN Responses

    `StunDiscover` in `tsshd/stun.go` asks a STUN server for the public address of its socket
    and reads the address from the attributes of the response.  The lengths in the response
    are those of whoever sent the datagram.  Every read is modelled with its bounds: a
    read outside the received bytes is a `Fault`, and so is a loop that needs more rounds than
    it is given.

    * `parseResponse_ok`: there is no fault, whatever the datagram is.
    * `stun_response_parsed`: an IPv4 address that is encoded behind any attributes of other
      kinds and families is returned.
-/

open Go

namespace Stun

/-! ## The code -/

def kStunMagicCookie : UInt32 := 0x2112A442
def kStunBindingResponse : UInt16 := 0x0101
def kStunAttrMapped : UInt16 := 0x0001
def kStunAttrXorMapped : UInt16 := 0x0020

inductive Fault where
  /-- The bytes from `i` to `j` are not all there. -/
  | outside (i j : Nat)
  /-- The loop has not ended yet. -/
  | rounds
  deriving DecidableEq, Repr

/-- `data[i:j]`. -/
def slice (data : Bytes) (i j : Nat) : Except Fault Bytes :=
  if i ≤ j ∧ j ≤ data.length then .ok ((data.drop i).take (j - i)) else .error (.outside i j)

/-- `data[i]`. -/
def byteAt (data : Bytes) (i : Nat) : Except Fault UInt8 :=
  match data[i]? with
  | some b => .ok b
  | none => .error (.outside i (i + 1))

/-- `IP.String` of four bytes. -/
def ipString (addr : Bytes) : String := ".".intercalate (addr.map fun b => toString b.toNat)

/-- An address and a port as `StunDiscover` returns them. -/
abbrev Address := String × Nat

/-- The two `if`s for an attribute; `none` goes on with the next one. -/
def readAttr (attrType : UInt16) (value : Bytes) : Except Fault (Option Address) :=
  if attrType = kStunAttrXorMapped ∧ 8 ≤ value.length then do
    if (← byteAt value 1) ≠ 0x01 then return none
    let xport := uint16 (← slice value 2 4)
    let port := xport ^^^ (kStunMagicCookie >>> 16).toUInt16
    let mask := putUint32 kStunMagicCookie
    let addr := (← slice value 4 8).zipWith (· ^^^ ·) mask
    return some (ipString addr, port.toNat)
  else if attrType = kStunAttrMapped ∧ 8 ≤ value.length then do
    if (← byteAt value 1) ≠ 0x01 then return none
    let port := uint16 (← slice value 2 4)
    let addr ← slice value 4 8
    return some (ipString addr, port.toNat)
  else return none

/-- What is known about a datagram. -/
inductive Outcome where
  /-- It is no response to the request. -/
  | unrelated
  /-- It is one, but without an IPv4 address. -/
  | noAddress
  | address (addr : Address)
  deriving DecidableEq, Repr

/-- The loop over the attributes from `pos` to `stop`. -/
def parseAttrs (data : Bytes) (stop : Nat) : Nat → Nat → Except Fault Outcome
  | rounds, pos =>
    if pos + 4 ≤ stop then
      match rounds with
      | 0 => .error .rounds
      | rounds + 1 => do
        let attrType := uint16 (← slice data pos (pos + 2))
        let attrLen := (uint16 (← slice data (pos + 2) (pos + 4))).toNat
        if pos + 4 + attrLen > stop then return .noAddress
        let value ← slice data (pos + 4) (pos + 4 + attrLen)
        match ← readAttr attrType value with
        | some addr => return .address addr
        | none => parseAttrs data stop rounds (pos + (4 + (attrLen + 3) / 4 * 4))
    else return .noAddress

/-- A datagram of `data.length` bytes, for the request with the transaction id `txid`. -/
def parseResponse (txid data : Bytes) : Except Fault Outcome := do
  if data.length < 20 then return .unrelated
  let msgType := uint16 (← slice data 0 2)
  let msgLen := uint16 (← slice data 2 4)
  let cookie := uint32 (← slice data 4 8)
  if msgType ≠ kStunBindingResponse ∨ cookie ≠ kStunMagicCookie then return .unrelated
  if (← slice data 8 20) ≠ txid then return .unrelated
  let stop := min (20 + msgLen.toNat) data.length
  parseAttrs data stop data.length 20

/-! ## No read is outside -/

theorem slice_ok {data : Bytes} {i j : Nat} (hij : i ≤ j) (hj : j ≤ data.length) :
    slice data i j = .ok ((data.drop i).take (j - i)) :=
  if_pos ⟨hij, hj⟩

theorem byteAt_ok {data : Bytes} {i : Nat} (h : i < data.length) : byteAt data i = .ok data[i] := by
  rw [byteAt, List.getElem?_eq_getElem h]

theorem readAttr_ok (attrType : UInt16) (value : Bytes) :
    ∃ r, readAttr attrType value = .ok r := by
  unfold readAttr
  by_cases hxor : attrType = kStunAttrXorMapped ∧ 8 ≤ value.length
  · rw [if_pos hxor, byteAt_ok (by omega), slice_ok (by omega) (by omega),
      slice_ok (by omega) (by omega)]
    by_cases hfamily : value[1] ≠ 0x01
    · exact ⟨none, if_pos hfamily⟩
    · exact ⟨_, if_neg hfamily⟩
  rw [if_neg hxor]
  by_cases hmapped : attrType = kStunAttrMapped ∧ 8 ≤ value.length
  · rw [if_pos hmapped, byteAt_ok (by omega), slice_ok (by omega) (by omega),
      slice_ok (by omega) (by omega)]
    by_cases hfamily : value[1] ≠ 0x01
    · exact ⟨none, if_pos hfamily⟩
    · exact ⟨_, if_neg hfamily⟩
  · rw [if_neg hmapped]
    exact ⟨none, rfl⟩

/-- One round of the loop inside the received bytes. -/
theorem parseAttrs_succ (data : Bytes) {stop : Nat} (hstop : stop ≤ data.length) (rounds : Nat)
    {pos : Nat} (hpos : pos + 4 ≤ stop) :
    parseAttrs data stop (rounds + 1) pos =
      let attrType := uint16 ((data.drop pos).take 2)
      let attrLen := (uint16 ((data.drop (pos + 2)).take 2)).toNat
      if pos + 4 + attrLen > stop then .ok .noAddress
      else
        match readAttr attrType ((data.drop (pos + 4)).take attrLen) with
        | .error e => .error e
        | .ok (some addr) => .ok (.address addr)
        | .ok none => parseAttrs data stop rounds (pos + (4 + (attrLen + 3) / 4 * 4)) := by
  have htwo : pos + 2 - pos = 2 := by omega
  have htwo' : pos + 4 - (pos + 2) = 2 := by omega
  rw [parseAttrs, if_pos hpos]
  simp only [slice_ok (show pos ≤ pos + 2 by omega) (show pos + 2 ≤ data.length by omega),
    slice_ok (show pos + 2 ≤ pos + 4 by omega) (show pos + 4 ≤ data.length by omega), htwo, htwo']
  by_cases hlen : pos + 4 + (uint16 ((data.drop (pos + 2)).take 2)).toNat > stop
  · exact (if_pos hlen).trans (if_pos hlen).symm
  · generalize hattr : (uint16 ((data.drop (pos + 2)).take 2)).toNat = attrLen at hlen ⊢
    have hvalue : slice data (pos + 4) (pos + 4 + attrLen) =
        .ok ((data.drop (pos + 4)).take attrLen) := by
      rw [slice_ok (by omega) (by omega), Nat.add_sub_cancel_left]
    refine Eq.trans (if_neg (hattr ▸ hlen)) ?_
    rw [if_neg hlen, hattr, hvalue]
    show (readAttr _ _ >>= _) = _
    cases readAttr (uint16 ((data.drop pos).take 2)) ((data.drop (pos + 4)).take attrLen) with
    | error e => rfl
    | ok r => cases r <;> rfl

/-- **Loop lemma.**  By induction on the rounds, which are enough for the bytes that are left:
    every round moves on by at least four bytes. -/
theorem parseAttrs_ok (data : Bytes) {stop : Nat} (hstop : stop ≤ data.length) (rounds pos : Nat)
    (hrounds : stop ≤ pos + rounds) : ∃ o, parseAttrs data stop rounds pos = .ok o := by
  induction rounds generalizing pos with
  | zero =>
    have hend : ¬ pos + 4 ≤ stop := by omega
    rw [parseAttrs, if_neg hend]
    exact ⟨_, rfl⟩
  | succ rounds ih =>
    by_cases hpos : pos + 4 ≤ stop
    · rw [parseAttrs_succ data hstop rounds hpos]
      simp only
      split
      · exact ⟨_, rfl⟩
      · obtain ⟨r, hr⟩ := readAttr_ok (uint16 ((data.drop pos).take 2))
          ((data.drop (pos + 4)).take (uint16 ((data.drop (pos + 2)).take 2)).toNat)
        rw [hr]
        cases r with
        | some addr => exact ⟨_, rfl⟩
        | none => exact ih _ (by omega)
    · rw [parseAttrs, if_neg hpos]
      exact ⟨_, rfl⟩

theorem parseResponse_of_header {txid data : Bytes} (hlen : 20 ≤ data.length) :
    parseResponse txid data =
      if uint16 (data.take 2) ≠ kStunBindingResponse ∨
          uint32 ((data.drop 4).take 4) ≠ kStunMagicCookie then .ok .unrelated
      else if (data.drop 8).take 12 ≠ txid then .ok .unrelated
      else parseAttrs data (min (20 + (uint16 ((data.drop 2).take 2)).toNat) data.length)
        data.length 20 := by
  unfold parseResponse
  rw [if_neg (by omega), slice_ok (by omega) (by omega), slice_ok (by omega) (by omega),
    slice_ok (by omega) (by omega), slice_ok (by omega) (by omega)]
  rfl

/-- **No fault.**  Whatever the datagram is, the parser ends and reads only received bytes. -/
theorem parseResponse_ok (txid data : Bytes) : ∃ o, parseResponse txid data = .ok o := by
  by_cases hlen : 20 ≤ data.length
  · rw [parseResponse_of_header hlen]
    split
    · exact ⟨_, rfl⟩
    split
    · exact ⟨_, rfl⟩
    · exact parseAttrs_ok data (Nat.min_le_right _ _) data.length 20 (by omega)
  · unfold parseResponse
    rw [if_pos (by omega)]
    exact ⟨_, rfl⟩

/-! ## Written responses -/

/-- An attribute, with the bytes that fill it up to a multiple of four. -/
structure Attribute where
  type : UInt16
  value : Bytes
  pad : Bytes
  fits : value.length < 65536
  padded : value.length + pad.length = (value.length + 3) / 4 * 4

def Attribute.encode (a : Attribute) : Bytes :=
  putUint16 a.type ++ (putUint16 (UInt16.ofNat a.value.length) ++ (a.value ++ a.pad))

/-- An attribute of another kind than the two with an address, or one of these for another address
    family. -/
def Attribute.Other (a : Attribute) : Prop :=
  (a.type ≠ kStunAttrMapped ∧ a.type ≠ kStunAttrXorMapped) ∨
  ((a.type = kStunAttrMapped ∨ a.type = kStunAttrXorMapped) ∧
    ∃ family, a.value[1]? = some family ∧ family ≠ 0x01)

/-- The IPv4 XOR-MAPPED-ADDRESS of an address and a port; its first byte is not used. -/
def xorMapped (reserved : UInt8) (ip : Bytes) (port : UInt16) : Bytes :=
  [reserved, 0x01] ++ (putUint16 (port ^^^ (kStunMagicCookie >>> 16).toUInt16) ++
    ip.zipWith (· ^^^ ·) (putUint32 kStunMagicCookie))

theorem length_xorMapped (reserved : UInt8) {ip : Bytes} (h : ip.length = 4) (port : UInt16) :
    (xorMapped reserved ip port).length = 8 := by
  simp [xorMapped, h]

def xorMappedAttr (reserved : UInt8) {ip : Bytes} (h : ip.length = 4) (port : UInt16) :
    Attribute where
  type := kStunAttrXorMapped
  value := xorMapped reserved ip port
  pad := []
  fits := by simp [length_xorMapped reserved h port]
  padded := by simp [length_xorMapped reserved h port]

/-- A response to the request with the transaction id `txid`. -/
def response (txid body : Bytes) : Bytes :=
  putUint16 kStunBindingResponse ++ (putUint16 (UInt16.ofNat body.length) ++
    (putUint32 kStunMagicCookie ++ (txid ++ body)))

/-! ## Reading them -/

theorem readAttr_other {a : Attribute} (h : a.Other) : readAttr a.type a.value = .ok none := by
  unfold readAttr
  rcases h with ⟨hmapped, hxor⟩ | ⟨htype, family, hfamily, hne⟩
  · rw [if_neg (fun h => hxor h.1), if_neg (fun h => hmapped h.1)]
    rfl
  · have hbyte : byteAt a.value 1 = .ok family := by
      rw [byteAt, hfamily]
    rw [hbyte]
    split
    · exact if_pos hne
    split
    · exact if_pos hne
    · rfl

theorem zipWith_xor_cancel {l m : Bytes} (h : l.length = m.length) :
    (l.zipWith (· ^^^ ·) m).zipWith (· ^^^ ·) m = l := by
  induction l generalizing m with
  | nil => rfl
  | cons b l ih =>
    cases m with
    | nil => cases h
    | cons x m =>
      rw [List.zipWith_cons_cons, List.zipWith_cons_cons, ih (Nat.succ.inj h), UInt8.xor_assoc,
        UInt8.xor_self, UInt8.xor_zero]

theorem readAttr_xorMapped (reserved : UInt8) {ip : Bytes} (h : ip.length = 4) (port : UInt16) :
    readAttr kStunAttrXorMapped (xorMapped reserved ip port) =
      .ok (some (ipString ip, port.toNat)) := by
  have hlen := length_xorMapped reserved h port
  have hport : slice (xorMapped reserved ip port) 2 4 =
      .ok (putUint16 (port ^^^ (kStunMagicCookie >>> 16).toUInt16)) := by
    rw [slice_ok (by omega) (by omega)]
    exact congrArg Except.ok (List.take_left' (length_putUint16 _))
  have haddr : slice (xorMapped reserved ip port) 4 8 =
      .ok (ip.zipWith (· ^^^ ·) (putUint32 kStunMagicCookie)) := by
    rw [slice_ok (by omega) (by omega)]
    refine congrArg Except.ok (List.take_of_length_le ?_)
    simp [xorMapped, h]
  have hfamily : byteAt (xorMapped reserved ip port) 1 = .ok 0x01 := rfl
  unfold readAttr
  rw [if_pos ⟨rfl, Nat.le_of_eq hlen.symm⟩, hfamily, hport, haddr]
  show Except.ok (some (ipString ((ip.zipWith (· ^^^ ·) (putUint32 kStunMagicCookie)).zipWith
    (· ^^^ ·) (putUint32 kStunMagicCookie)),
    (uint16 (putUint16 (port ^^^ (kStunMagicCookie >>> 16).toUInt16)) ^^^
      (kStunMagicCookie >>> 16).toUInt16).toNat)) = _
  rw [zipWith_xor_cancel (by rw [h, length_putUint32]), uint16_putUint16, UInt16.xor_assoc,
    UInt16.xor_self, UInt16.xor_zero]

theorem Attribute.length_encode (a : Attribute) :
    a.encode.length = 4 + (a.value.length + 3) / 4 * 4 := by
  have hpadded := a.padded
  simp only [encode, List.length_append, length_putUint16]
  omega

/-- The round at the beginning of a written attribute. -/
theorem parseAttrs_attribute (before rest : Bytes) (a : Attribute) (rounds : Nat) :
    let data := before ++ (a.encode ++ rest)
    parseAttrs data data.length (rounds + 1) before.length =
      match readAttr a.type a.value with
      | .error e => .error e
      | .ok (some addr) => .ok (.address addr)
      | .ok none => parseAttrs data data.length rounds (before ++ a.encode).length := by
  intro data
  have hlen := a.length_encode
  have hpadded := a.padded
  have hdata : data.length = before.length + (a.encode.length + rest.length) := by
    simp [data]
  have hdrop : ∀ k, data.drop (before.length + k) = (a.encode ++ rest).drop k := by
    intro k
    rw [← List.drop_drop, List.drop_left]
  have hassoc : a.encode ++ rest = putUint16 a.type ++
      (putUint16 (UInt16.ofNat a.value.length) ++ (a.value ++ (a.pad ++ rest))) := by
    simp [Attribute.encode]
  have htype : (data.drop before.length).take 2 = putUint16 a.type := by
    rw [List.drop_left, hassoc]
    exact List.take_left' (length_putUint16 _)
  have hattrLen : (uint16 ((data.drop (before.length + 2)).take 2)).toNat = a.value.length := by
    rw [hdrop, hassoc, List.drop_left' (length_putUint16 _), List.take_left' (length_putUint16 _),
      uint16_putUint16, UInt16.toNat_ofNat', Nat.mod_eq_of_lt a.fits]
  have hvalue : (data.drop (before.length + 4)).take a.value.length = a.value := by
    have hfour : (putUint16 a.type ++ putUint16 (UInt16.ofNat a.value.length)).length = 4 := by
      simp
    rw [hdrop, hassoc, ← List.append_assoc, List.drop_left' hfour]
    exact List.take_left
  rw [parseAttrs_succ data (Nat.le_refl _) rounds (by omega)]
  simp only [htype, hattrLen, hvalue, uint16_putUint16]
  have hnext : (before ++ a.encode).length = before.length + (4 + (a.value.length + 3) / 4 * 4) := by
    rw [List.length_append, hlen]
  rw [if_neg (by omega), hnext]

/-- **Loop lemma.**  By induction on the attributes that are passed over: the loop reaches the
    attribute with the address. -/
theorem parseAttrs_attributes {attrs : List Attribute} (hattrs : ∀ a ∈ attrs, a.Other)
    {last : Attribute} {addr : Address} (hlast : readAttr last.type last.value = .ok (some addr))
    (before rest : Bytes) (rounds : Nat) (hrounds : attrs.length < rounds) :
    let data := before ++ (attrs.flatMap Attribute.encode ++ (last.encode ++ rest))
    parseAttrs data data.length rounds before.length = .ok (.address addr) := by
  intro data
  induction attrs generalizing before rounds with
  | nil =>
    obtain ⟨rounds, rfl⟩ : ∃ n, rounds = n + 1 := ⟨rounds - 1, by simp at hrounds; omega⟩
    have hround := parseAttrs_attribute before rest last rounds
    rw [hlast] at hround
    exact hround
  | cons a attrs ih =>
    obtain ⟨rounds, rfl⟩ : ∃ n, rounds = n + 1 := ⟨rounds - 1, by simp at hrounds; omega⟩
    have hround := parseAttrs_attribute before
      (attrs.flatMap Attribute.encode ++ (last.encode ++ rest)) a rounds
    rw [readAttr_other (hattrs a List.mem_cons_self)] at hround
    have hnext := ih (fun b hb => hattrs b (List.mem_cons_of_mem _ hb)) (before ++ a.encode)
      rounds (by simpa using hrounds)
    have hdata : data = before ++ (a.encode ++ (attrs.flatMap Attribute.encode ++
        (last.encode ++ rest))) := by
      simp [data]
    rw [List.append_assoc] at hnext
    rw [hdata]
    exact hround.trans hnext

/-- The rounds that the code makes are enough for the attributes of the datagram. -/
theorem length_le_length_encode (attrs : List Attribute) :
    attrs.length ≤ (attrs.flatMap Attribute.encode).length := by
  induction attrs with
  | nil => exact Nat.le_refl _
  | cons a attrs ih =>
    have hlen := a.length_encode
    simp only [List.flatMap_cons, List.length_append, List.length_cons]
    omega

theorem parseResponse_response {txid body : Bytes} (htxid : txid.length = 12)
    (hbody : body.length < 65536) :
    parseResponse txid (response txid body) =
      parseAttrs (response txid body) (response txid body).length
        (response txid body).length 20 := by
  have hlen : (response txid body).length = 20 + body.length := by
    simp only [response, List.length_append, length_putUint16, length_putUint32]
    omega
  have htype : uint16 ((response txid body).take 2) = kStunBindingResponse := by
    rw [response, List.take_left' (length_putUint16 _), uint16_putUint16]
  have hmsgLen : (uint16 (((response txid body).drop 2).take 2)).toNat = body.length := by
    rw [response, List.drop_left' (length_putUint16 _), List.take_left' (length_putUint16 _),
      uint16_putUint16, UInt16.toNat_ofNat', Nat.mod_eq_of_lt hbody]
  have hdrop : (response txid body).drop (2 + 2) =
      putUint32 kStunMagicCookie ++ (txid ++ body) := by
    rw [response, ← List.drop_drop, List.drop_left' (length_putUint16 _),
      List.drop_left' (length_putUint16 _)]
  have hcookie : uint32 (((response txid body).drop 4).take 4) = kStunMagicCookie := by
    rw [hdrop, List.take_left' (length_putUint32 _), uint32_putUint32]
  have hid : ((response txid body).drop (4 + 4)).take 12 = txid := by
    rw [← List.drop_drop, hdrop, List.drop_left' (length_putUint32 _), List.take_left' htxid]
  rw [parseResponse_of_header (by omega), if_neg (by simp [htype, hcookie]),
    if_neg (by simp [hid]), hmsgLen, ← hlen, Nat.min_self]

/-- **STUN responses.**  The parser ends without a read outside the received bytes; and an IPv4
    address behind any other attributes is returned as it was encoded, whatever follows
    it. -/
theorem stun_response_parsed :
    (∀ txid data : Bytes, data.length ≤ 2048 → ∃ o, parseResponse txid data = .ok o) ∧
    ∀ (txid : Bytes) (attrs : List Attribute) (reserved : UInt8) (ip : Bytes) (port : UInt16)
      (rest : Bytes) (hip : ip.length = 4), txid.length = 12 → (∀ a ∈ attrs, a.Other) →
      let body := attrs.flatMap Attribute.encode ++
        ((xorMappedAttr reserved hip port).encode ++ rest)
      (response txid body).length ≤ 2048 →
      parseResponse txid (response txid body) = .ok (.address (ipString ip, port.toNat)) := by
  refine ⟨fun txid data _ => parseResponse_ok txid data, ?_⟩
  intro txid attrs reserved ip port rest hip htxid hattrs body hlen
  let header := putUint16 kStunBindingResponse ++ (putUint16 (UInt16.ofNat body.length) ++
    (putUint32 kStunMagicCookie ++ txid))
  have hheader : header.length = 20 := by
    simp [header, htxid]
  have hresponse : response txid body = header ++ body := by
    simp [response, header]
  have hbody : body.length < 65536 := by
    rw [hresponse, List.length_append] at hlen
    omega
  have hrounds : attrs.length < (header ++ body).length := by
    have hle := length_le_length_encode attrs
    simp only [body, List.length_append]
    omega
  have hlast : readAttr (xorMappedAttr reserved hip port).type
      (xorMappedAttr reserved hip port).value = .ok (some (ipString ip, port.toNat)) :=
    readAttr_xorMapped reserved hip port
  have hloop := parseAttrs_attributes hattrs hlast header rest (header ++ body).length hrounds
  rw [hheader] at hloop
  rw [parseResponse_response htxid hbody, hresponse]
  exact hloop

/-- An attribute SOFTWARE of five bytes, filled up with three. -/
def software : Attribute where
  type := 0x8022
  value := [0x74, 0x73, 0x73, 0x68, 0x64]
  pad := [0, 0, 0]
  fits := by decide
  padded := by decide

/-- The address 203.0.113.42:54321 behind another attribute. -/
theorem documented_response_parsed :
    parseResponse (List.replicate 12 7) (response (List.replicate 12 7)
      ([software].flatMap Attribute.encode ++
        ((xorMappedAttr 0 (show [203, 0, 113, 42].length = 4 from rfl) 54321).encode ++ []))) =
      .ok (.address (ipString [203, 0, 113, 42], 54321)) :=
  stun_response_parsed.2 (List.replicate 12 7) [software] 0 [203, 0, 113, 42] 54321 [] rfl rfl
    (by simp [Attribute.Other, software, kStunAttrMapped, kStunAttrXorMapped]) (by decide +kernel)

example : ipString [203, 0, 113, 42] = "203.0.113.42" := by decide +kernel

end Stun
