import Tssh.Framework.Slice

/-! # Authenticated Encryption on Byte Slices

    `Aead` is an authenticated cipher with the laws its users rely on: it
    opens what it sealed under the same key and nonce, opens nothing else,
    and rejects under every other key.  `sealInto` and `openInto` are the
    two operations as a Go `cipher.AEAD` performs them on slices: the result
    is appended to `dst`, in place where the capacity of `dst` allows it,
    and a failed `openInto` clears the bytes it would have written.
-/

namespace Go

/-- An authenticated cipher with keys in `Key`. -/
structure Aead (Key : Type) where
  nonceSize : Nat
  overhead : Nat
  enc : Key → Bytes → Bytes → Bytes
  dec : Key → Bytes → Bytes → Option Bytes
  overhead_pos : 0 < overhead
  length_enc : ∀ k n p, (enc k n p).length = p.length + overhead
  dec_enc : ∀ k n p, dec k n (enc k n p) = some p
  enc_of_dec : ∀ k n c p, dec k n c = some p → enc k n p = c
  dec_other : ∀ k k' n p, k' ≠ k → dec k' n (enc k n p) = none

namespace Aead

variable {Key : Type} (A : Aead Key)

/-- `Seal(dst, nonce, plaintext, nil)`. -/
def sealInto (k : Key) (h : Heap) (dst : Slice) (nonce : Bytes) (plaintext : Slice) :
    Slice × Heap :=
  let ct := A.enc k nonce (plaintext.bytes h)
  let ret := sliceForAppend h dst ct.length
  (ret.1, ret.2.store ret.1.arr (ret.1.off + dst.len) ct)

/-- `Open(dst, nonce, ciphertext, nil)`; `none` is the authentication error. -/
def openInto (k : Key) (h : Heap) (dst : Slice) (nonce : Bytes) (ciphertext : Slice) :
    Option Slice × Heap :=
  if ciphertext.len < A.overhead then (none, h)
  else
    let n := ciphertext.len - A.overhead
    let ret := sliceForAppend h dst n
    match A.dec k nonce (ciphertext.bytes h) with
    | some p => (some ret.1, ret.2.store ret.1.arr (ret.1.off + dst.len) p)
    | none => (none, ret.2.store ret.1.arr (ret.1.off + dst.len) (List.replicate n 0))

variable {A}

theorem length_of_dec {k : Key} {n c p : Bytes} (h : A.dec k n c = some p) :
    p.length + A.overhead = c.length := by
  rw [← A.enc_of_dec k n c p h, A.length_enc]

/-- Sealing appends the ciphertext to `dst`, whichever array it ends up in. -/
theorem bytes_sealInto {k : Key} {h : Heap} {dst plaintext : Slice} {nonce : Bytes}
    (hdst : dst.Valid h) :
    (A.sealInto k h dst nonce plaintext).1.bytes (A.sealInto k h dst nonce plaintext).2 =
      dst.bytes h ++ A.enc k nonce (plaintext.bytes h) := by
  generalize hct : A.enc k nonce (plaintext.bytes h) = ct
  have hdl := hdst.length_bytes
  simp only [sealInto, hct]
  by_cases hcap : dst.len + ct.length ≤ dst.cap
  · -- in place: the new bytes land behind the old length of `dst`
    simp only [sliceForAppend, if_pos hcap]
    have hv : (dst.upTo (dst.len + ct.length)).Valid h := hdst.upTo hcap
    rw [hv.bytes_store dst.len ct (by simp [Slice.upTo])]
    have hpre : ((dst.upTo (dst.len + ct.length)).bytes h).take dst.len = dst.bytes h := by
      simp [Slice.bytes, Slice.upTo, List.take_take]
    have hsuf : ((dst.upTo (dst.len + ct.length)).bytes h).drop (dst.len + ct.length) = [] :=
      List.drop_eq_nil_of_le (by rw [hv.length_bytes]; simp [Slice.upTo])
    rw [hpre, hsuf, List.append_nil]
  · -- a new array that starts with the bytes of `dst`
    simp only [sliceForAppend, if_neg hcap]
    have hv := Heap.valid_alloc h (dst.bytes h ++ List.replicate ct.length 0)
    have hlen : (h.alloc (dst.bytes h ++ List.replicate ct.length 0)).1.len =
        dst.len + ct.length := by simp [Heap.alloc, hdl]
    rw [hv.bytes_store dst.len ct (by omega), Heap.bytes_alloc,
      List.take_left' hdl, List.drop_eq_nil_of_le (by simp [hdl]), List.append_nil]

/-- A `nil` slice extended by `n` bytes: a new array, unless `n` is zero. -/
theorem sliceForAppend_empty (h : Heap) (n : Nat) :
    sliceForAppend h .empty n =
      if n = 0 then (.empty, h) else h.alloc (List.replicate n 0) := by
  unfold sliceForAppend
  by_cases hn : n = 0
  · simp [hn, Slice.empty, Slice.upTo]
  · rw [if_neg (by simp [Slice.empty, hn]), if_neg hn]
    simp [Slice.empty, Slice.bytes]

/-- Writing `n` bytes behind a `nil` slice leaves every allocated array alone, and
    the result shows exactly these bytes. -/
theorem store_empty_spec (h : Heap) (p : Bytes) :
    h.le ((sliceForAppend h .empty p.length).2.store
        (sliceForAppend h .empty p.length).1.arr
        ((sliceForAppend h .empty p.length).1.off + Slice.empty.len) p) ∧
      (sliceForAppend h .empty p.length).1.len = p.length ∧
      (sliceForAppend h .empty p.length).1.bytes
        ((sliceForAppend h .empty p.length).2.store
          (sliceForAppend h .empty p.length).1.arr
          ((sliceForAppend h .empty p.length).1.off + Slice.empty.len) p) = p := by
  rw [sliceForAppend_empty]
  cases p with
  | nil => simpa [Slice.empty, Slice.bytes] using h.le_refl
  | cons b p =>
    have hv := Heap.valid_alloc h (List.replicate (b :: p).length 0)
    rw [if_neg (by simp)]
    refine ⟨?_, by simp [Heap.alloc], ?_⟩
    · exact Heap.le_store (h.le_alloc _) (Nat.le_refl _)
    · have hb := hv.bytes_store 0 (b :: p) (by simp [Heap.alloc])
      simp only [Slice.empty] at hb ⊢
      rw [hb]
      simp [Heap.bytes_alloc]

/-- Opening with a `nil` destination, on either outcome: allocated arrays are
    unchanged, and a plaintext is returned in an array of its own. -/
theorem openInto_empty {h : Heap} {ct : Slice} (hct : ct.Valid h) (k : Key) (nonce : Bytes) :
    h.le (A.openInto k h .empty nonce ct).2 ∧
    (A.dec k nonce (ct.bytes h) = none → (A.openInto k h .empty nonce ct).1 = none) ∧
    (∀ p, A.dec k nonce (ct.bytes h) = some p → ∃ q,
      (A.openInto k h .empty nonce ct).1 = some q ∧ q.len = p.length ∧
      q.bytes (A.openInto k h .empty nonce ct).2 = p) := by
  unfold openInto
  cases hdec : A.dec k nonce (ct.bytes h) with
  | none =>
    split
    · exact ⟨h.le_refl, by simp, by simp⟩
    · have := (store_empty_spec h (List.replicate (ct.len - A.overhead) 0)).1
      rw [List.length_replicate] at this
      exact ⟨this, by simp, by simp⟩
  | some p =>
    have hlen := length_of_dec hdec
    rw [hct.length_bytes] at hlen
    rw [if_neg (by omega), show ct.len - A.overhead = p.length by omega]
    obtain ⟨h1, h2, h3⟩ := store_empty_spec h p
    refine ⟨h1, by simp, ?_⟩
    rintro _ ⟨rfl⟩
    exact ⟨_, rfl, h2, h3⟩

/-- What is not authentic is rejected, whatever the destination. -/
theorem openInto_none {h : Heap} {dst ct : Slice} {k : Key} {nonce : Bytes}
    (hdec : A.dec k nonce (ct.bytes h) = none) : (A.openInto k h dst nonce ct).1 = none := by
  unfold openInto
  split
  · rfl
  · rw [hdec]

/-- Opening in place: the destination starts where the ciphertext does. -/
theorem openInto_inPlace {h : Heap} {ct : Slice} (hct : ct.Valid h) {k : Key} {nonce p : Bytes}
    (hdec : A.dec k nonce (ct.bytes h) = some p) :
    A.openInto k h (ct.upTo 0) nonce ct =
      (some (ct.upTo p.length), h.store ct.arr ct.off p) := by
  have hlen := length_of_dec hdec
  rw [hct.length_bytes] at hlen
  have hle := hct.len_le
  have happ : sliceForAppend h (ct.upTo 0) p.length = (ct.upTo p.length, h) := by
    unfold sliceForAppend
    rw [if_pos (by simp [Slice.upTo]; omega)]
    simp [Slice.upTo]
  unfold openInto
  rw [if_neg (by omega), hdec, show ct.len - A.overhead = p.length by omega]
  simp only [happ]
  simp [Slice.upTo]

/-! ## A cipher that satisfies the laws -/

/-- A keystream of one repeated byte, and a tag made of the key. -/
def xorEnc (k : UInt8) (_nonce p : Bytes) : Bytes :=
  p.map (fun b => b ^^^ k) ++ List.replicate 16 k

def xorDec (k : UInt8) (nonce c : Bytes) : Option Bytes :=
  let p := (c.take (c.length - 16)).map (fun b => b ^^^ k)
  if xorEnc k nonce p = c then some p else none

/-- Keys of one byte.  It has the sizes of AES-GCM, and its evaluation is short
    enough to run concrete packets through the code. -/
def xorCipher : Aead UInt8 where
  nonceSize := 12
  overhead := 16
  enc := xorEnc
  dec := xorDec
  overhead_pos := by decide
  length_enc := by simp [xorEnc]
  dec_enc := by
    intro k n p
    have hxor : ((fun b => b ^^^ k) ∘ fun b => b ^^^ k) = (id : UInt8 → UInt8) := by
      funext b
      show b ^^^ k ^^^ k = b
      rw [UInt8.xor_assoc, UInt8.xor_self, UInt8.xor_zero]
    simp [xorDec, xorEnc, hxor]
  enc_of_dec := by
    intro k n c p h
    simp only [xorDec, Option.ite_none_right_eq_some, Option.some.injEq] at h
    exact h.2 ▸ h.1
  dec_other := by
    intro k k' n p hne
    simp only [xorDec, ite_eq_right_iff, reduceCtorEq, imp_false]
    intro h
    -- equal ciphertexts end in the same tag
    have hlast := congrArg List.getLast? h
    simp only [xorEnc, List.getLast?_append, List.getLast?_replicate] at hlast
    exact hne (by simpa using hlast)

end Aead

end Go
