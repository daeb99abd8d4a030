import Tssh.Framework.Slice
import Mathlib.Data.List.Infix

/-! # A Buffer with Checked Bounds

    A slice from the start of one array, `packet[:len]`, as a program fills it by reads
    and looks at parts of it.  Every index and every slice expression is checked the way
    Go checks it: an index against the length, the bounds of a slice expression against
    the capacity.  `none` is the run-time panic.
-/

namespace Go

/-- The first `len` bytes of an array. -/
structure Buffer where
  mem : Bytes
  len : Nat
  len_le : len ≤ mem.length

namespace Buffer

/-- `make([]byte, n)`. -/
def make (n : Nat) : Buffer := ⟨List.replicate n 0, n, by simp⟩

def cap (b : Buffer) : Nat := b.mem.length

/-- The bytes the slice shows. -/
def bytes (b : Buffer) : Bytes := b.mem.take b.len

/-- `b[i]`. -/
def get (b : Buffer) (i : Nat) : Option UInt8 := b.bytes[i]?

/-- The bytes of `b[lo:hi]`. -/
def window (b : Buffer) (lo hi : Nat) : Option Bytes :=
  if lo ≤ hi ∧ hi ≤ b.cap then some ((b.mem.drop lo).take (hi - lo)) else none

/-- The array after `copy(b[lo:hi], data)`. -/
def store (b : Buffer) (lo hi : Nat) (data : Bytes) : Bytes :=
  b.mem.take lo ++ data.take (hi - lo) ++ b.mem.drop (lo + (data.take (hi - lo)).length)

theorem length_store {b : Buffer} {lo hi : Nat} (h : lo ≤ hi ∧ hi ≤ b.cap) (data : Bytes) :
    (b.store lo hi data).length = b.mem.length := by
  obtain ⟨hlo, hhi⟩ := h
  simp only [cap] at hhi
  simp only [store, List.length_append, List.length_take, List.length_drop]
  omega

/-- `copy(b[lo:hi], data)`. -/
def copyAt (b : Buffer) (lo hi : Nat) (data : Bytes) : Option Buffer :=
  if h : lo ≤ hi ∧ hi ≤ b.cap then
    some ⟨b.store lo hi data, b.len, by rw [length_store h]; exact b.len_le⟩
  else none

/-- A read into `b[lo:hi]` that gets `data`, and then `b[:lo + n]` for the `n` bytes that
    were read. -/
def fill (b : Buffer) (lo hi : Nat) (data : Bytes) : Option Buffer :=
  if h : (lo ≤ hi ∧ hi ≤ b.cap) ∧ lo + data.length ≤ b.cap then
    some ⟨b.store lo hi data, lo + data.length, by rw [length_store h.1]; exact h.2⟩
  else none

@[simp] theorem cap_make (n : Nat) : (make n).cap = n := by simp [make, cap]

theorem length_bytes (b : Buffer) : b.bytes.length = b.len :=
  List.length_take_of_le b.len_le

theorem len_le_cap (b : Buffer) : b.len ≤ b.cap := b.len_le

theorem window_eq {b : Buffer} {lo hi : Nat} (hlo : lo ≤ hi) (hhi : hi ≤ b.len) :
    b.window lo hi = some ((b.bytes.drop lo).take (hi - lo)) := by
  have hcap := b.len_le_cap
  rw [window, if_pos ⟨hlo, by omega⟩, bytes, List.drop_take, List.take_take,
    min_eq_left (by omega)]

/-- A `copy` inside the slice replaces just these bytes. -/
theorem copyAt_eq (b : Buffer) (lo hi : Nat) (data : Bytes) (hlo : lo ≤ hi) (hhi : hi ≤ b.len)
    (hdata : data.length = hi - lo) :
    ∃ b', b.copyAt lo hi data = some b' ∧
      b'.bytes = b.bytes.take lo ++ data ++ b.bytes.drop hi := by
  have hcap := b.len_le_cap
  have hb : lo ≤ hi ∧ hi ≤ b.cap := ⟨hlo, by omega⟩
  rw [copyAt, dif_pos hb]
  refine ⟨_, rfl, ?_⟩
  have hfull : data.take (hi - lo) = data := List.take_of_length_le (by omega)
  show (b.store lo hi data).take b.len = _
  have hend : lo + data.length = hi := by omega
  rw [store, hfull, hend, List.take_append, List.take_of_length_le
    (by simp only [List.length_append, List.length_take]; omega), bytes, List.take_take,
    min_eq_left (by omega), List.drop_take]
  congr 2
  simp only [List.length_append, List.length_take]
  rw [min_eq_left (by simp only [cap] at hb; omega)]
  omega

/-- A read into the free part of the array appends to what the slice shows. -/
theorem fill_eq (b : Buffer) (lo hi : Nat) (data : Bytes) (hlo : lo ≤ hi) (hhi : hi ≤ b.cap)
    (hdata : data.length ≤ hi - lo) :
    ∃ b', b.fill lo hi data = some b' ∧ b'.bytes = b.mem.take lo ++ data ∧
      b'.len = lo + data.length ∧ b'.cap = b.cap := by
  have hb : (lo ≤ hi ∧ hi ≤ b.cap) ∧ lo + data.length ≤ b.cap := ⟨⟨hlo, hhi⟩, by omega⟩
  rw [fill, dif_pos hb]
  refine ⟨_, rfl, ?_, rfl, length_store hb.1 data⟩
  have hfull : data.take (hi - lo) = data := List.take_of_length_le hdata
  show (b.store lo hi data).take (lo + data.length) = _
  have hlen : (b.mem.take lo ++ data).length = lo + data.length := by
    rw [List.length_append, List.length_take_of_le (by simp only [cap] at hb; omega)]
  rw [store, hfull, ← hlen, List.take_left]

end Buffer

end Go
