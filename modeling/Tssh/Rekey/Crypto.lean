import Tssh.Framework.Aead
import Tssh.Framework.System

/-! # The Rotating Packet Cipher

    `rotatingCrypto` (`tsshd/rekey.go`) seals packets under one active key and
    opens them under any key of its list.  A rekey appends a key
    (`installKey`); opening a packet under a later key drops the keys before
    it (`promoteKey`).

    A packet is a nonce followed by the sealed bytes.  `openPacket` reports a
    length and leaves the plaintext in the caller's buffer: by decrypting in
    place under the last key of the list, or, under an earlier key, by copying
    back a plaintext that was decrypted elsewhere.  The packets are therefore
    slices over a heap.

    * `openLoop_last`, `openLoop_early`: which key opens a sealed packet, and
      what that leaves in the buffer.
    * `openPacket_restores_iff`: when the buffer ends up with the plaintext.
-/

open Go LTS

namespace Rekey

/-! ## State -/

/-- The errors of the sealing and opening functions.  `outOfRange` stands for
    the run-time panic of an index outside `gcmList`. -/
inductive CryptoError where
  | shortBuffer
  | noAvailableKeys
  | openFailed
  | outOfRange
  deriving DecidableEq, Repr

/-- `rotatingCrypto`.  Times are in milliseconds; the zero time is `none`. -/
structure RotatingCrypto (Key : Type) where
  keySalt : Bytes
  gcmList : List Key
  activeIdx : Nat
  nonceSize : Nat
  overhead : Nat
  timeThreshold : Nat
  bytesConsumed : UInt64
  bytesThreshold : UInt64
  bytesTriggered : Bool
  rekeyInFlight : Bool
  lastRekeyTime : Option Nat
  delegatedToProxy : Bool

/-- The cipher, and the key derivation (HKDF followed by AES-GCM set-up). -/
structure CryptoLib (Key : Type) where
  gcm : Aead Key
  deriveKey : Bytes → Bytes → Except String Key

variable {Key : Type} (L : CryptoLib Key)

namespace RotatingCrypto

/-! ## Keys -/

/-- `installKey`, at time `now`. -/
def installKey (now : Nat) (r : RotatingCrypto Key) (secret : Bytes) (active : Bool) :
    Except String (RotatingCrypto Key) := do
  let gcm ← L.deriveKey secret r.keySalt
  let gcmList := r.gcmList ++ [gcm]
  return { r with
    gcmList := gcmList
    activeIdx := if active then gcmList.length - 1 else r.activeIdx
    -- the first key is no rekey
    lastRekeyTime := if gcmList.length > 1 then some now else r.lastRekeyTime
    bytesConsumed := 0
    bytesTriggered := false
    rekeyInFlight := false }

/-- `promoteKey`. -/
def promoteKey (r : RotatingCrypto Key) (idx : Nat) : RotatingCrypto Key :=
  if idx ≥ r.gcmList.length then r
  else { r with gcmList := r.gcmList.drop idx, activeIdx := 0 }

/-- `newRotatingCrypto`; the ticker goroutine it may start is not part of the
    state. -/
def new (now : Nat) (pass salt : Bytes) (bytesThreshold : UInt64) (timeThreshold : Nat)
    (delegToProxy : Bool) : Except String (RotatingCrypto Key) := do
  let r ← installKey L now
    { keySalt := salt, gcmList := [], activeIdx := 0, nonceSize := 0, overhead := 0,
      timeThreshold := timeThreshold, bytesConsumed := 0, bytesThreshold := bytesThreshold,
      bytesTriggered := false, rekeyInFlight := false, lastRekeyTime := none,
      delegatedToProxy := delegToProxy } pass true
  return { r with nonceSize := L.gcm.nonceSize, overhead := L.gcm.overhead }

/-- `consumeBytes`; the flag says whether it starts `startRekey`. -/
def consumeBytes (r : RotatingCrypto Key) (n : UInt64) : RotatingCrypto Key × Bool :=
  if r.bytesThreshold = 0 then (r, false)
  else
    let r := { r with bytesConsumed := r.bytesConsumed + n }
    if r.bytesConsumed ≥ r.bytesThreshold ∧ ¬ r.bytesTriggered then
      ({ r with bytesTriggered := true }, true)
    else (r, false)

/-! ## Sealing -/

/-- `Seal`. -/
def sealSlice (r : RotatingCrypto Key) (h : Heap) (dst : Slice) (nonce : Bytes)
    (plaintext : Slice) : Except CryptoError Slice × Heap × RotatingCrypto Key :=
  if r.delegatedToProxy then
    if plaintext.len = 0 then (.ok dst, h, r)
    -- the plaintext already stands behind `dst`, so there is nothing to copy
    else if dst.len + plaintext.len ≤ dst.cap ∧
        (dst.dropFront dst.len).sameStart plaintext then
      (.ok (dst.upTo (dst.len + plaintext.len)), h, r)
    else
      let ret := sliceForAppend h dst plaintext.len
      (.ok ret.1, ret.2.store ret.1.arr (ret.1.off + dst.len) (plaintext.bytes h), r)
  else
    match r.gcmList[r.activeIdx]? with
    | none => (.error .outOfRange, h, r)
    | some gcm =>
      let r := (r.consumeBytes (UInt64.ofNat plaintext.len)).1
      let out := L.gcm.sealInto gcm h dst nonce plaintext
      (.ok out.1, out.2, r)

/-- `sealPacket`. -/
def sealPacket (r : RotatingCrypto Key) (h : Heap) (buf : Slice) (inPlace : Bool) :
    Except CryptoError Slice × Heap × RotatingCrypto Key :=
  if buf.len < r.nonceSize then (.error .shortBuffer, h, r)
  else
    let nonce := buf.upTo r.nonceSize
    let plaintext := buf.dropFront r.nonceSize
    if inPlace then
      r.sealSlice L h (buf.upTo r.nonceSize) (nonce.bytes h) plaintext
    else
      let out := h.alloc (List.replicate (r.nonceSize + plaintext.len + r.overhead) 0)
      let dst := out.1.upTo r.nonceSize
      let h := copy out.2 dst nonce
      r.sealSlice L h dst (nonce.bytes h) plaintext

/-! ## Opening -/

/-- The loop of `Open` over the keys from index `i` on.  Only the last key
    decrypts into `dst`; the others decrypt into memory of their own. -/
def openLoop (dst : Slice) (nonce : Bytes) (ciphertext : Slice) :
    List Key → Nat → Heap → Option (Nat × Slice) × Heap
  | [], _, h => (none, h)
  | gcm :: rest, i, h =>
    let buf := if rest.isEmpty then dst else .empty
    let out := L.gcm.openInto gcm h buf nonce ciphertext
    match out.1 with
    | some plaintext => (some (i, plaintext), out.2)
    | none => openLoop dst nonce ciphertext rest (i + 1) out.2

/-- `Open`. -/
def openSlice (r : RotatingCrypto Key) (h : Heap) (dst : Slice) (nonce : Bytes)
    (ciphertext : Slice) : Except CryptoError Slice × Heap × RotatingCrypto Key :=
  if r.delegatedToProxy then (.ok ciphertext, h, r)
  else
    let out := openLoop L dst nonce ciphertext r.gcmList 0 h
    match out.1 with
    | some (i, plaintext) =>
      -- the peer has switched to a later key, or else the bytes count towards a rekey
      let r := if i > 0 then r.promoteKey i
        else (r.consumeBytes (UInt64.ofNat plaintext.len)).1
      (.ok plaintext, out.2, r)
    | none =>
      (.error (if r.gcmList.isEmpty then .noAvailableKeys else .openFailed), out.2, r)

/-- `openPacket`. -/
def openPacket (r : RotatingCrypto Key) (h : Heap) (buf : Slice) :
    Except CryptoError Nat × Heap × RotatingCrypto Key :=
  if buf.len < r.nonceSize + r.overhead then (.error .shortBuffer, h, r)
  else
    let nonce := buf.upTo r.nonceSize
    let ciphertext := buf.dropFront r.nonceSize
    match r.openSlice L h (ciphertext.upTo 0) (nonce.bytes h) ciphertext with
    | (.error e, h, r) => (.error e, h, r)
    | (.ok plaintext, h, r) =>
      -- the source copies into `ciphertext[:0]`, a slice of length zero
      let h := if plaintext.len > 0 ∧ ¬ plaintext.sameStart ciphertext then
          copy h (ciphertext.upTo 0) plaintext
        else h
      (.ok (r.nonceSize + plaintext.len), h, r)

/-! ## Reachable states -/

/-- The two operations that change the keys. -/
inductive KeyOp where
  | installKey (now : Nat) (secret : Bytes) (active : Bool)
  | promoteKey (idx : Nat)

/-- A cipher as `newRotatingCrypto` leaves it, under any sequence of key
    operations.  An `installKey` that fails returns before it changes anything,
    so it is no step. -/
def keySystem : System (RotatingCrypto Key) KeyOp where
  init := fun r => ∃ now pass salt bytesThreshold timeThreshold delegToProxy,
    new L now pass salt bytesThreshold timeThreshold delegToProxy = .ok r
  step := fun r op r' =>
    match op with
    | .installKey now secret active => r.installKey L now secret active = .ok r'
    | .promoteKey idx => r' = r.promoteKey idx

/-- What every key operation keeps: the sizes are those of the cipher, and the
    active index is inside the list. -/
structure KeyInv (r : RotatingCrypto Key) : Prop where
  nonceSize : r.nonceSize = L.gcm.nonceSize
  overhead : r.overhead = L.gcm.overhead
  active : r.activeIdx < r.gcmList.length

variable {L} {now : Nat} {r : RotatingCrypto Key}

/-- What a successful `installKey` does. -/
theorem installKey_ok {r r' : RotatingCrypto Key} {secret : Bytes} {active : Bool}
    (h : r.installKey L now secret active = .ok r') :
    ∃ k, L.deriveKey secret r.keySalt = .ok k ∧ r'.gcmList = r.gcmList ++ [k] ∧
      r'.activeIdx = (if active then r.gcmList.length else r.activeIdx) ∧
      r'.nonceSize = r.nonceSize ∧ r'.overhead = r.overhead ∧ r'.keySalt = r.keySalt ∧
      r'.delegatedToProxy = r.delegatedToProxy := by
  unfold installKey at h
  cases hk : L.deriveKey secret r.keySalt with
  | error e => simp [hk, bind, Except.bind] at h
  | ok k =>
    simp only [hk, bind, Except.bind, pure, Except.pure, Except.ok.injEq] at h
    subst h
    exact ⟨k, rfl, rfl, by simp, rfl, rfl, rfl, rfl⟩

theorem promoteKey_inv (hr : KeyInv L r) (idx : Nat) : KeyInv L (r.promoteKey idx) := by
  unfold promoteKey
  split
  · exact hr
  · refine ⟨hr.nonceSize, hr.overhead, ?_⟩
    simp only [List.length_drop]
    omega

theorem installKey_inv {r r' : RotatingCrypto Key} {secret : Bytes} {active : Bool}
    (hr : KeyInv L r) (h : r.installKey L now secret active = .ok r') : KeyInv L r' := by
  obtain ⟨k, _, hlist, hact, hn, ho, _, _⟩ := installKey_ok h
  have := hr.active
  refine ⟨hn.trans hr.nonceSize, ho.trans hr.overhead, ?_⟩
  rw [hlist, hact, List.length_append, List.length_singleton]
  split <;> omega

/-- What a successful `newRotatingCrypto` returns: a cipher with the one key it was made
    from, and the sizes of the AEAD. -/
theorem new_ok {now timeThreshold : Nat} {pass salt : Bytes} {bytesThreshold : UInt64}
    {delegToProxy : Bool}
    (h : new L now pass salt bytesThreshold timeThreshold delegToProxy = .ok r) :
    ∃ k, L.deriveKey pass salt = .ok k ∧ r.gcmList = [k] ∧ r.activeIdx = 0 ∧
      r.nonceSize = L.gcm.nonceSize ∧ r.overhead = L.gcm.overhead ∧ r.keySalt = salt := by
  unfold new at h
  simp only [bind, Except.bind, pure, Except.pure] at h
  split at h
  · cases h
  · next r₀ h₀ =>
    obtain ⟨k, hk, hlist, hact, _, _, hsalt, _⟩ := installKey_ok h₀
    cases h
    exact ⟨k, hk, hlist, by simp [hact], rfl, rfl, hsalt⟩

theorem new_inv {now timeThreshold : Nat} {pass salt : Bytes} {bytesThreshold : UInt64}
    {delegToProxy : Bool}
    (h : new L now pass salt bytesThreshold timeThreshold delegToProxy = .ok r) : KeyInv L r := by
  obtain ⟨k, _, hlist, hact, hnonce, hover, _⟩ := new_ok h
  exact ⟨hnonce, hover, by simp [hlist, hact]⟩

theorem keySystem_inv (hr : (keySystem L).Reachable r) : KeyInv L r := by
  refine System.invariant (keySystem L) ?_ ?_ hr
  · intro r ⟨_, _, _, _, _, _, h⟩
    exact new_inv h
  · intro r op r' hinv hstep
    match op with
    | .installKey _ _ _ => exact installKey_inv hinv hstep
    | .promoteKey idx => exact hstep ▸ promoteKey_inv hinv idx

/-! ## The loop of `Open` on a sealed packet -/

section OpenLoop

variable {h : Heap} {ct : Slice} {k : Key} {nonce p : Bytes}

/-- Keys other than the one the packet was sealed under, with more keys after
    them, are skipped and leave the caller's memory alone. -/
theorem openLoop_skip (pre rest : List Key) (i : Nat) (hrest : rest ≠ []) (hpre : k ∉ pre)
    (hct : ct.Valid h) (hsealed : ct.bytes h = L.gcm.enc k nonce p) :
    ∃ h', h.le h' ∧
      openLoop L (ct.upTo 0) nonce ct (pre ++ rest) i h =
        openLoop L (ct.upTo 0) nonce ct rest (i + pre.length) h' := by
  induction pre generalizing i h with
  | nil => exact ⟨h, h.le_refl, rfl⟩
  | cons g pre ih =>
    -- `g` fails, into memory of its own, and the rest of the loop sees a larger heap
    have hne : g ≠ k := fun hg => hpre (hg ▸ List.mem_cons_self)
    have hdec : L.gcm.dec g nonce (ct.bytes h) = none := by
      rw [hsealed, L.gcm.dec_other k g nonce p hne]
    obtain ⟨hle, hnone, _⟩ := Aead.openInto_empty (A := L.gcm) hct g nonce
    have hbytes := hct.bytes_mono hle
    obtain ⟨h', hle', heq⟩ := ih (i + 1) (fun hk => hpre (List.mem_cons_of_mem _ hk))
      (hct.mono hle) (hbytes.trans hsealed)
    refine ⟨h', Heap.le_trans hle hle', ?_⟩
    have hempty : (pre ++ rest).isEmpty = false := by simp [hrest]
    simp only [List.cons_append, openLoop, hempty, Bool.false_eq_true, if_false, hnone hdec, heq,
      List.length_cons, Nat.add_assoc, Nat.add_comm 1]

/-- The packet was sealed under the last key only: it is decrypted in place. -/
theorem openLoop_last (pre : List Key) (i : Nat) (hpre : k ∉ pre)
    (hct : ct.Valid h) (hsealed : ct.bytes h = L.gcm.enc k nonce p) :
    ∃ h', h.le h' ∧
      openLoop L (ct.upTo 0) nonce ct (pre ++ [k]) i h =
        (some (i + pre.length, ct.upTo p.length), h'.store ct.arr ct.off p) := by
  obtain ⟨h', hle, heq⟩ := openLoop_skip pre [k] i (by simp) hpre hct hsealed
  have hdec : L.gcm.dec k nonce (ct.bytes h') = some p := by
    rw [hct.bytes_mono hle, hsealed, L.gcm.dec_enc]
  refine ⟨h', hle, ?_⟩
  rw [heq]
  simp [openLoop, Aead.openInto_inPlace (hct.mono hle) hdec]

/-- The packet was sealed under a key with more keys after it: the plaintext is
    in memory of its own and the caller's is unchanged. -/
theorem openLoop_early (pre post : List Key) (i : Nat) (hpre : k ∉ pre) (hpost : post ≠ [])
    (hct : ct.Valid h) (hsealed : ct.bytes h = L.gcm.enc k nonce p) :
    ∃ h' q, h.le h' ∧ q.len = p.length ∧ q.bytes h' = p ∧
      openLoop L (ct.upTo 0) nonce ct (pre ++ k :: post) i h =
        (some (i + pre.length, q), h') := by
  obtain ⟨h₁, hle₁, heq⟩ := openLoop_skip pre (k :: post) i (by simp) hpre hct hsealed
  have hdec : L.gcm.dec k nonce (ct.bytes h₁) = some p := by
    rw [hct.bytes_mono hle₁, hsealed, L.gcm.dec_enc]
  obtain ⟨hle₂, _, hsome⟩ := Aead.openInto_empty (A := L.gcm) (hct.mono hle₁) k nonce
  obtain ⟨q, hq, hlen, hbytes⟩ := hsome p hdec
  refine ⟨_, q, Heap.le_trans hle₁ hle₂, hlen, hbytes, ?_⟩
  rw [heq]
  simp [openLoop, hpost, hq]

/-- The packet was sealed under no key of the list. -/
theorem openLoop_none {keys : List Key} (i : Nat) (hk : k ∉ keys) (hct : ct.Valid h)
    (hsealed : ct.bytes h = L.gcm.enc k nonce p) :
    (openLoop L (ct.upTo 0) nonce ct keys i h).1 = none := by
  rcases List.eq_nil_or_concat' keys with rfl | ⟨pre, g, rfl⟩
  · rfl
  · rw [List.mem_append, not_or, List.mem_singleton] at hk
    obtain ⟨h', hle, heq⟩ := openLoop_skip pre [g] i (by simp) hk.1 hct hsealed
    have hdec : L.gcm.dec g nonce (ct.bytes h') = none := by
      rw [hct.bytes_mono hle, hsealed, L.gcm.dec_other k g nonce p (Ne.symm hk.2)]
    rw [heq]
    simp [openLoop, Aead.openInto_none hdec]

end OpenLoop

/-! ## Packets -/

/-- A packet sealed under the active key `k` is the nonce followed by the sealed
    plaintext, in place or not. -/
theorem sealPacket_bytes (hr : KeyInv L r) {k : Key} (hactive : r.gcmList[r.activeIdx]? = some k)
    (hplain : r.delegatedToProxy = false) {h : Heap} {buf : Slice} (hbuf : buf.Valid h)
    {nonce plaintext : Bytes} (hnonce : nonce.length = L.gcm.nonceSize)
    (hbytes : buf.bytes h = nonce ++ plaintext) (inPlace : Bool) :
    ∃ pkt, (r.sealPacket L h buf inPlace).1 = .ok pkt ∧
      pkt.bytes (r.sealPacket L h buf inPlace).2.1 = nonce ++ L.gcm.enc k nonce plaintext := by
  have hns : r.nonceSize = nonce.length := by rw [hnonce, hr.nonceSize]
  have hlen : nonce.length + plaintext.length = buf.len := by
    rw [← hbuf.length_bytes, hbytes, List.length_append]
  have hnb : (buf.upTo r.nonceSize).bytes h = nonce := by
    rw [Slice.bytes_upTo (by omega), hbytes, hns, List.take_left]
  have hpb : (buf.dropFront r.nonceSize).bytes h = plaintext := by
    rw [Slice.bytes_dropFront, hbytes, hns, List.drop_left]
  have hcap := hbuf.len_le
  unfold sealPacket
  rw [if_neg (by omega)]
  cases inPlace with
  | true =>
    simp only [if_true, sealSlice, hplain, Bool.false_eq_true, if_false, hactive]
    refine ⟨_, rfl, ?_⟩
    rw [Aead.bytes_sealInto (hbuf.upTo (by omega)), hnb, hpb]
  | false =>
    -- `dst` is the front of a new array, which receives a copy of the nonce
    have hv := hbuf.upTo (n := r.nonceSize) (by omega)
    obtain ⟨hle, hdst, hdb⟩ := copy_alloc_front hv
      (List.replicate (r.nonceSize + (buf.dropFront r.nonceSize).len + r.overhead) 0)
      (n := r.nonceSize) rfl (by simp; omega)
    simp only [Bool.false_eq_true, if_false, sealSlice, hplain, hactive]
    refine ⟨_, rfl, ?_⟩
    rw [Aead.bytes_sealInto hdst, hdb, hv.bytes_mono hle, hnb,
      (hbuf.dropFront (by omega)).bytes_mono hle, hpb]

section OpenPacket

variable {r : RotatingCrypto Key} {k : Key} {h : Heap} {buf : Slice} {nonce p : Bytes}

/-- The length check passes on a sealed packet, and `openPacket` hands its two parts
    to `Open`. -/
theorem openPacket_eq (hr : KeyInv L r) (hbuf : buf.Valid h)
    (hnonce : nonce.length = L.gcm.nonceSize)
    (hpkt : buf.bytes h = nonce ++ L.gcm.enc k nonce p) :
    (buf.dropFront nonce.length).Valid h ∧
      (buf.dropFront nonce.length).bytes h = L.gcm.enc k nonce p ∧
      r.openPacket L h buf =
        match r.openSlice L h ((buf.dropFront nonce.length).upTo 0) nonce
          (buf.dropFront nonce.length) with
        | (.error e, h, r) => (.error e, h, r)
        | (.ok plaintext, h, r) =>
          (.ok (r.nonceSize + plaintext.len),
            if plaintext.len > 0 ∧ ¬ plaintext.sameStart (buf.dropFront nonce.length) then
              copy h ((buf.dropFront nonce.length).upTo 0) plaintext
            else h, r) := by
  have hns : r.nonceSize = nonce.length := by rw [hnonce, hr.nonceSize]
  have hlen : buf.len = nonce.length + (p.length + L.gcm.overhead) := by
    rw [← hbuf.length_bytes, hpkt, List.length_append, L.gcm.length_enc]
  refine ⟨hbuf.dropFront (by omega), ?_, ?_⟩
  · rw [Slice.bytes_dropFront, hpkt, List.drop_left]
  · have hnb : (buf.upTo nonce.length).bytes h = nonce := by
      rw [Slice.bytes_upTo (by omega), hpkt, List.take_left]
    unfold openPacket
    rw [if_neg (by rw [hns, hr.overhead]; omega), hns]
    simp only [hnb]

theorem promoteKey_nonceSize (r : RotatingCrypto Key) (idx : Nat) :
    (r.promoteKey idx).nonceSize = r.nonceSize := by
  unfold promoteKey
  split <;> rfl

theorem consumeBytes_fields (r : RotatingCrypto Key) (n : UInt64) :
    (r.consumeBytes n).1.nonceSize = r.nonceSize ∧
      (r.consumeBytes n).1.gcmList = r.gcmList ∧
      (r.consumeBytes n).1.activeIdx = r.activeIdx ∧
      (r.consumeBytes n).1.keySalt = r.keySalt := by
  unfold consumeBytes
  split
  · exact ⟨rfl, rfl, rfl, rfl⟩
  · dsimp only
    split <;> exact ⟨rfl, rfl, rfl, rfl⟩

/-- What `Open` returns when the loop stops at index `i`. -/
theorem openSlice_found {dst ct plaintext : Slice} {h' : Heap} {i : Nat}
    (hopen : r.delegatedToProxy = false)
    (hloop : openLoop L dst nonce ct r.gcmList 0 h = (some (i, plaintext), h')) :
    ∃ r', r.openSlice L h dst nonce ct = (.ok plaintext, h', r') ∧
      r'.nonceSize = r.nonceSize := by
  refine ⟨if i > 0 then r.promoteKey i
    else (r.consumeBytes (UInt64.ofNat plaintext.len)).1, ?_, ?_⟩
  · simp [openSlice, hopen, hloop]
  · split
    · exact promoteKey_nonceSize r i
    · exact (consumeBytes_fields r _).1

/-- A packet sealed under the last key only is decrypted in place. -/
theorem openPacket_last (hr : KeyInv L r) (hopen : r.delegatedToProxy = false) {pre : List Key}
    (hlist : r.gcmList = pre ++ [k]) (hpre : k ∉ pre) (hbuf : buf.Valid h)
    (hnonce : nonce.length = L.gcm.nonceSize)
    (hpkt : buf.bytes h = nonce ++ L.gcm.enc k nonce p) :
    (r.openPacket L h buf).1 = .ok (nonce.length + p.length) ∧
      (buf.bytes (r.openPacket L h buf).2.1).take (nonce.length + p.length) = nonce ++ p := by
  have hns : r.nonceSize = nonce.length := by rw [hnonce, hr.nonceSize]
  obtain ⟨hct, hcb, heq⟩ := openPacket_eq (r := r) hr hbuf hnonce hpkt
  obtain ⟨h', hle, hloop⟩ := openLoop_last pre 0 hpre hct hcb
  rw [← hlist] at hloop
  obtain ⟨r', hslice, hns'⟩ := openSlice_found hopen hloop
  rw [heq, hslice]
  have hsame : ((buf.dropFront nonce.length).upTo p.length).sameStart
      (buf.dropFront nonce.length) = true := by simp [Slice.sameStart, Slice.upTo]
  simp only [hsame, not_true, and_false, if_false]
  refine ⟨by rw [hns', hns]; rfl, ?_⟩
  have hlen : (buf.bytes h).length = nonce.length + (p.length + L.gcm.overhead) := by
    rw [hpkt, List.length_append, L.gcm.length_enc]
  have hstore := (hbuf.mono hle).bytes_store nonce.length p
    (by rw [← hbuf.length_bytes, hlen]; omega)
  rw [hbuf.bytes_mono hle, hpkt, List.take_left] at hstore
  show (buf.bytes (h'.store buf.arr (buf.off + nonce.length) p)).take _ = _
  rw [hstore]
  exact List.take_left' (by simp)

/-- A packet sealed under a key with more keys after it: the length is right, and the
    buffer is left as it was. -/
theorem openPacket_early (hr : KeyInv L r) (hopen : r.delegatedToProxy = false)
    {pre post : List Key} (hlist : r.gcmList = pre ++ k :: post) (hpre : k ∉ pre)
    (hpost : post ≠ []) (hbuf : buf.Valid h) (hnonce : nonce.length = L.gcm.nonceSize)
    (hpkt : buf.bytes h = nonce ++ L.gcm.enc k nonce p) :
    (r.openPacket L h buf).1 = .ok (nonce.length + p.length) ∧
      buf.bytes (r.openPacket L h buf).2.1 = buf.bytes h := by
  have hns : r.nonceSize = nonce.length := by rw [hnonce, hr.nonceSize]
  obtain ⟨hct, hcb, heq⟩ := openPacket_eq (r := r) hr hbuf hnonce hpkt
  obtain ⟨h', q, hle, hqlen, _, hloop⟩ := openLoop_early pre post 0 hpre hpost hct hcb
  rw [← hlist] at hloop
  obtain ⟨r', hslice, hns'⟩ := openSlice_found hopen hloop
  rw [heq, hslice]
  refine ⟨by dsimp only; rw [hns', hns, hqlen], ?_⟩
  -- copying into `ciphertext[:0]` stores no bytes
  have hcopy : copy h' ((buf.dropFront nonce.length).upTo 0) q = h' := by
    simp [copy, Slice.upTo]
  simp only [hcopy, ite_self]
  exact hbuf.bytes_mono hle

/-- A cipher that leaves the encryption to the proxy returns the packet as it is. -/
theorem openPacket_delegated (hr : KeyInv L r) (hopen : r.delegatedToProxy = true)
    (hbuf : buf.Valid h) (hnonce : nonce.length = L.gcm.nonceSize)
    (hpkt : buf.bytes h = nonce ++ L.gcm.enc k nonce p) :
    (r.openPacket L h buf).1 = .ok buf.len ∧ (r.openPacket L h buf).2.1 = h := by
  have hns : r.nonceSize = nonce.length := by rw [hnonce, hr.nonceSize]
  have hlen : buf.len = nonce.length + (p.length + L.gcm.overhead) := by
    rw [← hbuf.length_bytes, hpkt, List.length_append, L.gcm.length_enc]
  obtain ⟨_, _, heq⟩ := openPacket_eq (r := r) hr hbuf hnonce hpkt
  rw [heq]
  simp only [openSlice, hopen, if_true]
  refine ⟨?_, by simp [Slice.sameStart]⟩
  simp only [hns, Slice.dropFront]
  congr 1
  omega

end OpenPacket

/-! ## The plaintext in the caller's buffer -/

/-- **Opening restores the plaintext**: the peer sealed `plaintext` under `k`, a key of
    `r`, and the packet arrived in `rbuf`.  `openPacket` leaves the nonce and the
    plaintext in `rbuf` exactly when `r` does its own encryption and `k` occurs in its
    list at the last position only, or the sealed bytes happen to begin with the
    plaintext (as they do when it is empty). -/
theorem openPacket_restores_iff {r peer : RotatingCrypto Key}
    (hr : (keySystem L).Reachable r) (hpeer : (keySystem L).Reachable peer)
    {k : Key} (hk : k ∈ r.gcmList) (hactive : peer.gcmList[peer.activeIdx]? = some k)
    (hown : peer.delegatedToProxy = false) {nonce plaintext : Bytes}
    (hnonce : nonce.length = L.gcm.nonceSize) (inPlace : Bool)
    {hs : Heap} {buf : Slice} (hbuf : buf.Valid hs) (hbytes : buf.bytes hs = nonce ++ plaintext)
    {pkt : Slice} (hseal : (peer.sealPacket L hs buf inPlace).1 = .ok pkt)
    {h : Heap} {rbuf : Slice} (hrbuf : rbuf.Valid h)
    (hrecv : rbuf.bytes h = pkt.bytes (peer.sealPacket L hs buf inPlace).2.1) :
    (∃ n, (r.openPacket L h rbuf).1 = .ok n ∧
        (rbuf.bytes (r.openPacket L h rbuf).2.1).take n = nonce ++ plaintext) ↔
      r.delegatedToProxy = false ∧
        (k ∉ r.gcmList.dropLast ∨
          (L.gcm.enc k nonce plaintext).take plaintext.length = plaintext) := by
  have hinv := keySystem_inv hr
  obtain ⟨pkt', hpkt', hsealed⟩ :=
    sealPacket_bytes (keySystem_inv hpeer) hactive hown hbuf hnonce hbytes inPlace
  rw [hseal, Except.ok.injEq] at hpkt'
  rw [← hpkt', ← hrecv] at hsealed
  cases hdeleg : r.delegatedToProxy with
  | true =>
    -- the tag is still there, so the lengths differ
    obtain ⟨hok, hheap⟩ := openPacket_delegated hinv hdeleg hrbuf hnonce hsealed
    simp only [Bool.true_eq_false, false_and, iff_false]
    rintro ⟨n, hn, htake⟩
    rw [hok, Except.ok.injEq] at hn
    rw [hheap, ← hn, ← hrbuf.length_bytes, List.take_length, hsealed] at htake
    have hlen := congrArg List.length htake
    have hpos := L.gcm.overhead_pos
    simp only [List.length_append, L.gcm.length_enc] at hlen
    omega
  | false =>
    simp only [true_and]
    -- `pre` is the part of the list before the first occurrence of `k`
    obtain ⟨pre, post, hlist, hpre⟩ := List.eq_append_cons_of_mem hk
    by_cases hpost : post = []
    · -- the first occurrence is the last key
      subst hpost
      obtain ⟨hok, htake⟩ := openPacket_last hinv hdeleg hlist hpre hrbuf hnonce hsealed
      refine ⟨fun _ => .inl ?_, fun _ => ⟨_, hok, htake⟩⟩
      rw [hlist, List.dropLast_concat]
      exact hpre
    · -- the buffer still has the sealed bytes behind the nonce
      obtain ⟨hok, hsame⟩ :=
        openPacket_early hinv hdeleg hlist hpre hpost hrbuf hnonce hsealed
      have hmem : k ∈ r.gcmList.dropLast := by
        rw [hlist, List.dropLast_append_of_ne_nil (by simp), List.dropLast_cons_of_ne_nil hpost]
        simp
      have htake : (rbuf.bytes h).take (nonce.length + plaintext.length) =
          nonce ++ (L.gcm.enc k nonce plaintext).take plaintext.length := by
        rw [hsealed, List.take_length_add_append]
      constructor
      · rintro ⟨n, hn, hbuf'⟩
        rw [hok, Except.ok.injEq] at hn
        rw [hsame, ← hn, htake] at hbuf'
        exact .inr (List.append_cancel_left hbuf')
      · rintro (hlast | heq)
        · exact absurd hmem hlast
        · exact ⟨_, hok, by rw [hsame, htake, heq]⟩

/-! ## A server in the middle of a rekey -/

section DuringRekey

/-- The one-byte cipher; a secret's first byte is its key. -/
def xorLib : CryptoLib UInt8 where
  gcm := Aead.xorCipher
  deriveKey := fun secret _ => .ok (secret.headD 0)

/-- Keys `1` and, when `rekeyed`, also `2`; the server keeps sending under `1`. -/
def underKeyOne (rekeyed : Bool) : RotatingCrypto UInt8 :=
  { keySalt := [], gcmList := if rekeyed then [1, 2] else [1], activeIdx := 0, nonceSize := 12,
    overhead := 16, timeThreshold := 0, bytesConsumed := 0, bytesThreshold := 0,
    bytesTriggered := false, rekeyInFlight := false,
    lastRekeyTime := if rekeyed then some 7 else none, delegatedToProxy := false }

/-- The client that has switched to key `2`. -/
def underKeyTwo : RotatingCrypto UInt8 := { underKeyOne true with activeIdx := 1 }

/-- A buffer with a zero nonce and the plaintext `A`. -/
def plainHeap : Heap := { arrays := [List.replicate 12 0 ++ [65]] }

def plainBuf : Slice := { arr := 0, off := 0, len := 13, cap := 13 }

/-- The packet sealed under `k`, as it arrives in a buffer of its own. -/
def sealedHeap (k : UInt8) : Heap :=
  { arrays := [List.replicate 12 0 ++ Aead.xorEnc k (List.replicate 12 0) [65]] }

def sealedBuf : Slice := { arr := 0, off := 0, len := 29, cap := 29 }

theorem underKeyOne_reachable (rekeyed : Bool) :
    (keySystem xorLib).Reachable (underKeyOne rekeyed) := by
  have h₁ : (keySystem xorLib).Reachable (underKeyOne false) :=
    .init ⟨0, [1], [], 0, 0, false, rfl⟩
  cases rekeyed with
  | false => exact h₁
  | true => exact .step (.installKey 7 [2] false) h₁ rfl

theorem underKeyTwo_reachable : (keySystem xorLib).Reachable underKeyTwo :=
  .step (.installKey 7 [2] true) (underKeyOne_reachable false) rfl

theorem plainBuf_valid : plainBuf.Valid plainHeap := ⟨by decide, by decide, by decide⟩

theorem sealedBuf_valid (k : UInt8) : sealedBuf.Valid (sealedHeap k) :=
  ⟨by simp [sealedHeap, sealedBuf], by decide,
    by simp [sealedHeap, sealedBuf, Heap.array, Aead.xorEnc]⟩

/-- The client has switched: its packets come under the last key of the server, and the
    server's buffer ends up with the plaintext. -/
theorem openPacket_restores_after_switch :
    ∃ n, ((underKeyOne true).openPacket xorLib (sealedHeap 2) sealedBuf).1 = .ok n ∧
      (sealedBuf.bytes
          ((underKeyOne true).openPacket xorLib (sealedHeap 2) sealedBuf).2.1).take n =
        List.replicate 12 0 ++ [65] :=
  (openPacket_restores_iff (underKeyOne_reachable true) underKeyTwo_reachable (k := 2) (by decide)
    rfl rfl rfl true plainBuf_valid rfl
    (rfl : (underKeyTwo.sealPacket xorLib plainHeap plainBuf true).1 = .ok ⟨1, 0, 29, 29⟩)
    (sealedBuf_valid 2) (by decide)).mpr ⟨rfl, .inl (by decide)⟩

/-- The client has not switched yet: its packet comes under the first of the server's two
    keys.  The server reports thirteen bytes and no error, and the thirteenth is still the
    sealed one. -/
theorem openPacket_restores_fails_before_switch :
    ¬ ∀ (r peer : RotatingCrypto UInt8) (k : UInt8) (nonce plaintext : Bytes) (inPlace : Bool)
        (hs : Heap) (buf pkt : Slice) (h : Heap) (rbuf : Slice),
      (keySystem xorLib).Reachable r → (keySystem xorLib).Reachable peer → k ∈ r.gcmList →
      peer.gcmList[peer.activeIdx]? = some k → peer.delegatedToProxy = false →
      nonce.length = xorLib.gcm.nonceSize → buf.Valid hs → buf.bytes hs = nonce ++ plaintext →
      (peer.sealPacket xorLib hs buf inPlace).1 = .ok pkt → rbuf.Valid h →
      rbuf.bytes h = pkt.bytes (peer.sealPacket xorLib hs buf inPlace).2.1 →
      ∃ n, (r.openPacket xorLib h rbuf).1 = .ok n ∧
        (rbuf.bytes (r.openPacket xorLib h rbuf).2.1).take n = nonce ++ plaintext := by
  intro hopens
  obtain ⟨n, hn, hbuf⟩ := hopens (underKeyOne true) (underKeyOne false) 1 (List.replicate 12 0) [65]
    true plainHeap plainBuf ⟨1, 0, 29, 29⟩ (sealedHeap 1) sealedBuf (underKeyOne_reachable true)
    (underKeyOne_reachable false) (by decide) rfl rfl rfl plainBuf_valid rfl rfl
    (sealedBuf_valid 1) (by decide)
  have hlen : ((underKeyOne true).openPacket xorLib (sealedHeap 1) sealedBuf).1 = .ok 13 := rfl
  rw [hlen, Except.ok.injEq] at hn
  subst hn
  exact absurd hbuf (by decide)

end DuringRekey

end RotatingCrypto

end Rekey
