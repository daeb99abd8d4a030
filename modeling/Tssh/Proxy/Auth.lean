import Tssh.Framework.Aead
import Tssh.Framework.BigEndian

/-! # Authentication Packets

    Client and server proxy authenticate to each other with packets sealed under
    the proxy key (`tsshd/proxy.go`, `tsshd/proxy_server.go`).  A packet is a
    random nonce followed by the sealed 16 bytes of an identity and a serial
    number.

    * `openAuthPacket_iff`: what the server accepts is exactly what was sealed
      under the proxy key for a client it serves.
-/

open Go

namespace Proxy

/-- What the server proxy is started with: the cipher block of the proxy key, the mode,
    and the identities of the two sides. -/
structure ServerProxy (Key : Type) where
  gcm : Aead Key
  cipherBlock : Key
  attachable : Bool
  serverID : UInt64
  clientID : UInt64

variable {Key : Type} (P : ServerProxy Key)

namespace ServerProxy

/-- `aesEncrypt`; the random nonce is an argument. -/
def aesEncrypt (nonce buf : Bytes) : Bytes := nonce ++ P.gcm.enc P.cipherBlock nonce buf

/-- `aesDecrypt`. -/
def aesDecrypt (buf : Bytes) : Option Bytes :=
  if buf.length < P.gcm.nonceSize then none
  else P.gcm.dec P.cipherBlock (buf.take P.gcm.nonceSize) (buf.drop P.gcm.nonceSize)

/-- `sealAuthPacket`. -/
def sealAuthPacket (nonce : Bytes) (serialNumber : UInt64) : Bytes :=
  P.aesEncrypt nonce (putUint64 P.serverID ++ putUint64 serialNumber)

/-- `openAuthPacket`: the client and the serial number of an authentication packet. -/
def openAuthPacket (buf : Bytes) : Option (UInt64 × UInt64) :=
  match P.aesDecrypt buf with
  | none => none
  | some data =>
    if data.length ≠ 16 then none
    else
      let clientID := uint64 (data.take 8)
      if ¬ P.attachable ∧ clientID ≠ P.clientID then none
      else some (clientID, uint64 (data.drop 8))

/-- An authentic packet of client `c` with serial number `serial`: sealed under the proxy
    key, for a client that the server serves. -/
def Authentic (c serial : UInt64) (buf : Bytes) : Prop :=
  (P.attachable = true ∨ c = P.clientID) ∧
    ∃ nonce, nonce.length = P.gcm.nonceSize ∧
      buf = P.aesEncrypt nonce (putUint64 c ++ putUint64 serial)

variable {P}

theorem aesDecrypt_aesEncrypt {nonce : Bytes} (hnonce : nonce.length = P.gcm.nonceSize)
    (data : Bytes) : P.aesDecrypt (P.aesEncrypt nonce data) = some data := by
  unfold aesDecrypt aesEncrypt
  rw [if_neg (by rw [List.length_append]; omega), ← hnonce, List.take_left, List.drop_left,
    P.gcm.dec_enc]

theorem aesDecrypt_some {buf data : Bytes} (h : P.aesDecrypt buf = some data) :
    ∃ nonce, nonce.length = P.gcm.nonceSize ∧ buf = P.aesEncrypt nonce data := by
  unfold aesDecrypt at h
  split at h
  · cases h
  · next hlen =>
    refine ⟨buf.take P.gcm.nonceSize, by rw [List.length_take]; omega, ?_⟩
    rw [aesEncrypt, P.gcm.enc_of_dec _ _ _ _ h, List.take_append_drop]

/-- **The server accepts exactly the authentic packets.** -/
theorem openAuthPacket_iff {buf : Bytes} {c serial : UInt64} :
    P.openAuthPacket buf = some (c, serial) ↔ P.Authentic c serial buf := by
  constructor
  · intro h
    unfold openAuthPacket at h
    split at h
    · cases h
    · next data hdata =>
      obtain ⟨nonce, hnonce, rfl⟩ := aesDecrypt_some hdata
      split at h
      · cases h
      · next hlen =>
        have hlen : data.length = 16 := by omega
        dsimp only at h
        split at h
        · cases h
        · next hid =>
          rw [Option.some.injEq, Prod.mk.injEq] at h
          obtain ⟨rfl, rfl⟩ := h
          refine ⟨?_, nonce, hnonce, ?_⟩
          · by_cases ha : P.attachable = true
            · exact .inl ha
            · exact .inr (by_contra fun hc => hid ⟨ha, hc⟩)
          · rw [putUint64_pair hlen]
  · intro ⟨hserves, nonce, hnonce, hbuf⟩
    have hid : ¬ (¬ P.attachable = true ∧ c ≠ P.clientID) := by tauto
    unfold openAuthPacket
    rw [hbuf, aesDecrypt_aesEncrypt hnonce]
    dsimp only
    rw [if_neg (by simp), uint64_take_pair, uint64_drop_pair, if_neg hid]

end ServerProxy

end Proxy
