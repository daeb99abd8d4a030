import Mathlib.Data.List.Basic

/-! # Go Byte Slices over Shared Arrays

    A slice is a window into a backing array; two slices may share one.
    What an in-place operation leaves in a caller's buffer depends on that
    sharing, so the arrays are explicit: a `Heap` holds them by number and
    only grows, and a `Slice` is a number, an offset, a length and a
    capacity.

    * `Heap.alloc`, `Heap.store`: the two ways memory changes.
    * `sliceForAppend`, `copy`, `append`: the operations the callers use.
    * `Heap.le`: the heap order; valid slices keep their bytes along it.
-/

namespace Go

abbrev Bytes := List UInt8

/-- The backing arrays, by number. -/
structure Heap where
  arrays : List Bytes

/-- A window into array `arr`. -/
structure Slice where
  arr : Nat
  off : Nat
  len : Nat
  cap : Nat
  deriving DecidableEq, Repr

namespace Heap

def array (h : Heap) (a : Nat) : Bytes := h.arrays.getD a []

/-- Overwrite array `a` from position `pos` on. -/
def store (h : Heap) (a pos : Nat) (bs : Bytes) : Heap :=
  { arrays := h.arrays.set a
      ((h.array a).take pos ++ bs ++ (h.array a).drop (pos + bs.length)) }

/-- A new array, and the slice that covers it. -/
def alloc (h : Heap) (bs : Bytes) : Slice × Heap :=
  ({ arr := h.arrays.length, off := 0, len := bs.length, cap := bs.length },
   { arrays := h.arrays ++ [bs] })

end Heap

namespace Slice

/-- The `nil` slice. -/
def empty : Slice := { arr := 0, off := 0, len := 0, cap := 0 }

/-- `s[:n]`. -/
def upTo (s : Slice) (n : Nat) : Slice := { s with len := n }

/-- `s[n:]`. -/
def dropFront (s : Slice) (n : Nat) : Slice :=
  { s with off := s.off + n, len := s.len - n, cap := s.cap - n }

/-- The bytes a slice shows. -/
def bytes (h : Heap) (s : Slice) : Bytes := ((h.array s.arr).drop s.off).take s.len

/-- `&s[0] == &t[0]`. -/
def sameStart (s t : Slice) : Bool := s.arr == t.arr && s.off == t.off

/-- The window lies inside an allocated array. -/
structure Valid (h : Heap) (s : Slice) : Prop where
  alloc : s.arr < h.arrays.length
  len_le : s.len ≤ s.cap
  cap_le : s.off + s.cap ≤ (h.array s.arr).length

instance (h : Heap) (s : Slice) : Decidable (s.Valid h) :=
  decidable_of_iff
    (s.arr < h.arrays.length ∧ s.len ≤ s.cap ∧ s.off + s.cap ≤ (h.array s.arr).length)
    ⟨fun ⟨halloc, hlen, hcap⟩ => ⟨halloc, hlen, hcap⟩,
     fun hv => ⟨hv.alloc, hv.len_le, hv.cap_le⟩⟩

end Slice

/-- Extend `dst` by `n` bytes: in place when the capacity suffices, else into a
    new array that starts with the bytes of `dst`. -/
def sliceForAppend (h : Heap) (dst : Slice) (n : Nat) : Slice × Heap :=
  if dst.len + n ≤ dst.cap then (dst.upTo (dst.len + n), h)
  else h.alloc (dst.bytes h ++ List.replicate n 0)

/-- `copy(dst, src)`: as many bytes as fit into the *length* of `dst`. -/
def copy (h : Heap) (dst src : Slice) : Heap :=
  h.store dst.arr dst.off ((src.bytes h).take dst.len)

/-- `append(s, bs...)`: in place when the capacity suffices, else into a new array with room
    for `extra` more bytes. -/
def append (h : Heap) (s : Slice) (bs : Bytes) (extra : Nat) : Slice × Heap :=
  if s.len + bs.length ≤ s.cap then
    (s.upTo (s.len + bs.length), h.store s.arr (s.off + s.len) bs)
  else
    let made := h.alloc (s.bytes h ++ bs ++ List.replicate extra 0)
    (made.1.upTo (s.len + bs.length), made.2)

/-! ## Stores and allocations -/

variable {a n pos : Nat} {bs : Bytes} {s : Slice}

theorem Heap.array_store_self {h : Heap} (ha : a < h.arrays.length) :
    (h.store a pos bs).array a =
      (h.array a).take pos ++ bs ++ (h.array a).drop (pos + bs.length) := by
  simp [Heap.store, Heap.array, List.getD_eq_getElem?_getD, ha]

theorem Heap.array_store_ne {h : Heap} {a b pos : Nat} (hab : a ≠ b) :
    (h.store a pos bs).array b = h.array b := by
  simp [Heap.store, Heap.array, List.getD_eq_getElem?_getD, List.getElem?_set_ne hab]

@[simp] theorem Heap.store_length (h : Heap) (a pos : Nat) (bs : Bytes) :
    (h.store a pos bs).arrays.length = h.arrays.length := by
  simp [Heap.store]

/-- Storing no bytes changes nothing. -/
@[simp] theorem Heap.store_nil (h : Heap) (a pos : Nat) : h.store a pos [] = h := by
  rcases h with ⟨as⟩
  simp only [Heap.store, Heap.array, List.append_nil, List.length_nil, Nat.add_zero,
    List.take_append_drop, List.getD_eq_getElem?_getD, Heap.mk.injEq]
  apply List.ext_getElem?
  intro i
  by_cases hi : i = a
  · subst hi
    by_cases hlt : i < as.length <;> simp [hlt]
  · rw [List.getElem?_set_ne (fun h => hi h.symm)]

theorem Heap.array_alloc {h : Heap} (ha : a < h.arrays.length) :
    (h.alloc bs).2.array a = h.array a := by
  simp [Heap.alloc, Heap.array, List.getD_eq_getElem?_getD, List.getElem?_append_left ha]

theorem Heap.array_alloc_self (h : Heap) (bs : Bytes) :
    (h.alloc bs).2.array h.arrays.length = bs := by
  simp [Heap.alloc, Heap.array, List.getD_eq_getElem?_getD]

/-! ## The heap order -/

/-- `h'` has the arrays of `h` unchanged, and possibly more. -/
def Heap.le (h h' : Heap) : Prop :=
  h.arrays.length ≤ h'.arrays.length ∧ ∀ a < h.arrays.length, h'.array a = h.array a

theorem Heap.le_refl (h : Heap) : h.le h := ⟨Nat.le_refl _, fun _ _ => rfl⟩

theorem Heap.le_trans {h₁ h₂ h₃ : Heap} (h₁₂ : h₁.le h₂) (h₂₃ : h₂.le h₃) : h₁.le h₃ :=
  ⟨Nat.le_trans h₁₂.1 h₂₃.1, fun a ha =>
    (h₂₃.2 a (Nat.lt_of_lt_of_le ha h₁₂.1)).trans (h₁₂.2 a ha)⟩

theorem Heap.le_alloc (h : Heap) (bs : Bytes) : h.le (h.alloc bs).2 :=
  ⟨by simp [Heap.alloc], fun _ ha => Heap.array_alloc ha⟩

/-- A store into an array that `h` does not have leaves `h` below. -/
theorem Heap.le_store {h h' : Heap} (hle : h.le h') (ha : h.arrays.length ≤ a) :
    h.le (h'.store a pos bs) :=
  ⟨by simpa using hle.1, fun b hb => by
    rw [Heap.array_store_ne (by omega), hle.2 b hb]⟩

theorem Slice.Valid.bytes_mono {h h' : Heap} (hs : s.Valid h) (hle : h.le h') :
    s.bytes h' = s.bytes h := by
  simp [Slice.bytes, hle.2 s.arr hs.alloc]

theorem Slice.Valid.mono {h h' : Heap} (hs : s.Valid h) (hle : h.le h') : s.Valid h' :=
  ⟨Nat.lt_of_lt_of_le hs.alloc hle.1, hs.len_le, by rw [hle.2 _ hs.alloc]; exact hs.cap_le⟩

/-! ## Bytes of slices -/

theorem Slice.Valid.length_bytes {h : Heap} (hs : s.Valid h) : (s.bytes h).length = s.len := by
  have h1 := hs.len_le
  have h2 := hs.cap_le
  simp only [Slice.bytes, List.length_take, List.length_drop]
  omega

theorem Slice.Valid.upTo {h : Heap} (hs : s.Valid h) (hn : n ≤ s.cap) :
    (s.upTo n).Valid h := ⟨hs.alloc, hn, hs.cap_le⟩

theorem Slice.Valid.dropFront {h : Heap} (hs : s.Valid h) (hn : n ≤ s.len) :
    (s.dropFront n).Valid h := by
  have h1 := hs.len_le
  have h2 := hs.cap_le
  refine ⟨hs.alloc, ?_, ?_⟩
  · simp only [Slice.dropFront]; omega
  · simp only [Slice.dropFront]; omega

theorem Slice.bytes_upTo {h : Heap} (hn : n ≤ s.len) : (s.upTo n).bytes h = (s.bytes h).take n := by
  simp [Slice.bytes, Slice.upTo, List.take_take, Nat.min_eq_left hn]

theorem Slice.bytes_dropFront (h : Heap) (s : Slice) (n : Nat) :
    (s.dropFront n).bytes h = (s.bytes h).drop n := by
  simp [Slice.bytes, Slice.dropFront, List.drop_take, List.drop_drop]

/-- Writing into a slice from position `pos` on. -/
theorem Slice.Valid.bytes_store {h : Heap} (hs : s.Valid h) (pos : Nat) (bs : Bytes)
    (hfit : pos + bs.length ≤ s.len) :
    s.bytes (h.store s.arr (s.off + pos) bs) =
      (s.bytes h).take pos ++ bs ++ (s.bytes h).drop (pos + bs.length) := by
  have h1 := hs.len_le
  have h2 := hs.cap_le
  simp only [Slice.bytes, Heap.array_store_self hs.alloc]
  apply List.ext_getElem?
  intro i
  simp only [List.getElem?_take, List.getElem?_drop, List.getElem?_append, List.length_append,
    List.length_take, List.length_drop]
  -- both sides read the same byte before, inside and after the written region
  split_ifs <;> first | rfl | omega | (congr 1; omega)

/-- Writing all of a slice. -/
theorem Slice.Valid.bytes_store_all {h : Heap} (hs : s.Valid h) (hlen : bs.length = s.len) :
    s.bytes (h.store s.arr s.off bs) = bs := by
  have hstore := hs.bytes_store 0 bs (by omega)
  have hbehind : (s.bytes h).drop (0 + bs.length) = [] :=
    List.drop_eq_nil_of_le (by rw [hs.length_bytes]; omega)
  rw [hbehind, List.take_zero, List.nil_append, List.append_nil] at hstore
  exact hstore

theorem Heap.length_array_store {h : Heap} (hfit : pos + bs.length ≤ (h.array a).length) (b : Nat) :
    ((h.store a pos bs).array b).length = (h.array b).length := by
  by_cases hab : a = b
  · subst hab
    by_cases ha : a < h.arrays.length
    · rw [Heap.array_store_self ha]
      simp only [List.length_append, List.length_take, List.length_drop]
      omega
    · simp [Heap.store, Heap.array, List.getD_eq_getElem?_getD, ha]
  · rw [Heap.array_store_ne hab]

/-- A store inside the array keeps every slice valid. -/
theorem Slice.Valid.store {h : Heap} (hs : s.Valid h)
    (hfit : pos + bs.length ≤ (h.array a).length) :
    s.Valid (h.store a pos bs) :=
  ⟨by simpa using hs.alloc, hs.len_le, by
    rw [Heap.length_array_store hfit]; exact hs.cap_le⟩

/-- The bytes of a freshly allocated slice. -/
theorem Heap.bytes_alloc (h : Heap) (bs : Bytes) : (h.alloc bs).1.bytes (h.alloc bs).2 = bs := by
  have := Heap.array_alloc_self h bs
  simp only [Slice.bytes, Heap.alloc] at this ⊢
  simp [this]

theorem Heap.valid_alloc (h : Heap) (bs : Bytes) : (h.alloc bs).1.Valid (h.alloc bs).2 :=
  ⟨by simp [Heap.alloc], Nat.le_refl _, by
    have := Heap.array_alloc_self h bs
    simp only [Heap.alloc] at this ⊢
    simp [this]⟩

/-- Copying a slice to the front of a new array: allocated arrays are unchanged and
    the front shows the copied bytes. -/
theorem copy_alloc_front {h : Heap} {src : Slice} (hsrc : src.Valid h) (zeros : Bytes)
    (hn : src.len = n) (hlen : n ≤ zeros.length) :
    h.le (copy (h.alloc zeros).2 ((h.alloc zeros).1.upTo n) src) ∧
    ((h.alloc zeros).1.upTo n).Valid
      (copy (h.alloc zeros).2 ((h.alloc zeros).1.upTo n) src) ∧
    ((h.alloc zeros).1.upTo n).bytes
      (copy (h.alloc zeros).2 ((h.alloc zeros).1.upTo n) src) = src.bytes h := by
  have hle := h.le_alloc zeros
  have hbl := hsrc.length_bytes.trans hn
  have hdst : ((h.alloc zeros).1.upTo n).Valid (h.alloc zeros).2 :=
    (Heap.valid_alloc h zeros).upTo hlen
  have hcopy : copy (h.alloc zeros).2 ((h.alloc zeros).1.upTo n) src =
      (h.alloc zeros).2.store h.arrays.length (0 + 0) (src.bytes h) := by
    unfold copy
    rw [hsrc.bytes_mono hle, List.take_of_length_le (by rw [hbl]; exact Nat.le_refl _)]
    rfl
  rw [hcopy]
  refine ⟨Heap.le_store hle (Nat.le_refl _), ?_, ?_⟩
  · exact hdst.store (by rw [Heap.array_alloc_self, hbl]; simpa using hlen)
  · exact hdst.bytes_store_all hbl

/-! ## Appending -/

theorem Slice.bytes_store_of_ne {h : Heap} (hne : a ≠ s.arr) :
    s.bytes (h.store a pos bs) = s.bytes h := by
  rw [Slice.bytes, Heap.array_store_ne hne, Slice.bytes]

/-- A slice has no byte in the `n` bytes from position `pos` of array `a` on. -/
def Slice.Clear (s : Slice) (a pos n : Nat) : Prop :=
  s.arr = a → s.off + s.len ≤ pos ∨ pos + n ≤ s.off

instance (s : Slice) (a pos n : Nat) : Decidable (s.Clear a pos n) :=
  inferInstanceAs (Decidable (s.arr = a → s.off + s.len ≤ pos ∨ pos + n ≤ s.off))

theorem Slice.Valid.bytes_store_clear {h : Heap} (hs : s.Valid h)
    (hfit : pos + bs.length ≤ (h.array a).length) (hclear : s.Clear a pos bs.length) :
    s.bytes (h.store a pos bs) = s.bytes h := by
  by_cases harr : s.arr = a
  · have h1 := hs.len_le
    have h2 := hs.cap_le
    have hside := hclear harr
    subst harr
    simp only [Slice.bytes, Heap.array_store_self hs.alloc]
    apply List.ext_getElem?
    intro i
    simp only [List.getElem?_take, List.getElem?_drop, List.getElem?_append, List.length_append,
      List.length_take]
    -- the slice is read before or after the stored bytes only
    split_ifs <;> first | rfl | omega | (congr 1; omega)
  · exact Slice.bytes_store_of_ne (fun heq => harr heq.symm)

/-- `append` leaves a slice alone that is in another array, or apart from the bytes that are
    appended in place. -/
theorem append_keeps {h : Heap} {s t : Slice} (hs : s.Valid h) (bs : Bytes) (extra : Nat)
    (ht : t.Valid h)
    (hclear : s.len + bs.length ≤ s.cap → t.Clear s.arr (s.off + s.len) bs.length) :
    t.bytes (append h s bs extra).2 = t.bytes h := by
  have hcap := hs.cap_le
  unfold append
  split
  · next hfits => exact ht.bytes_store_clear (by omega) (hclear hfits)
  · exact ht.bytes_mono (h.le_alloc _)

/-- `append` returns a slice in the same array, or in a new one. -/
theorem append_arr (h : Heap) (s : Slice) (bs : Bytes) (extra : Nat) :
    (append h s bs extra).1.arr = s.arr ∨ (append h s bs extra).1.arr = h.arrays.length := by
  unfold append
  split
  · exact .inl rfl
  · exact .inr rfl

section Append

variable {h : Heap} {s : Slice} (hs : s.Valid h) (bs : Bytes) (extra : Nat)

include hs

/-- What `append` returns. -/
theorem append_result :
    (append h s bs extra).1.Valid (append h s bs extra).2 ∧
      (append h s bs extra).1.bytes (append h s bs extra).2 = s.bytes h ++ bs := by
  have hlen := hs.length_bytes
  have hcap := hs.cap_le
  unfold append
  split
  · next hfits =>
    have hwide : (s.upTo (s.len + bs.length)).Valid h := hs.upTo hfits
    refine ⟨hwide.store (by omega), ?_⟩
    have hstore := hwide.bytes_store s.len bs (Nat.le_refl _)
    rw [List.drop_eq_nil_of_le (by rw [hwide.length_bytes]; exact Nat.le_refl _),
      List.append_nil] at hstore
    have hfront : ((s.upTo (s.len + bs.length)).bytes h).take s.len = s.bytes h := by
      rw [← Slice.bytes_upTo (by simp [Slice.upTo])]
      rfl
    rw [hfront] at hstore
    exact hstore
  · have hmade := Heap.valid_alloc h (s.bytes h ++ bs ++ List.replicate extra 0)
    have hbytes := Heap.bytes_alloc h (s.bytes h ++ bs ++ List.replicate extra 0)
    have hroom : s.len + bs.length ≤
        (h.alloc (s.bytes h ++ bs ++ List.replicate extra 0)).1.len := by
      simp only [Heap.alloc, List.length_append, hlen]
      omega
    refine ⟨hmade.upTo (Nat.le_trans hroom hmade.len_le), ?_⟩
    have hfront : s.len + bs.length = (s.bytes h ++ bs).length := by
      rw [List.length_append, hlen]
    dsimp only
    rw [Slice.bytes_upTo hroom, hbytes, hfront, List.take_left]

theorem append_valid {t : Slice} (ht : t.Valid h) : t.Valid (append h s bs extra).2 := by
  have hcap := hs.cap_le
  unfold append
  split
  · exact ht.store (by omega)
  · exact ht.mono (h.le_alloc _)

end Append

end Go
