import Tssh.Framework.Slice
import Mathlib.Tactic.Ring

/-! # Big-Endian Numbers

    `beBytes n v` are the last `n` base-256 digits of `v`, the most significant
    one first, and `beNat` reads such digits.  The 64-bit, 32-bit and 16-bit forms are
    those of Go's `binary.BigEndian`; a number that was put comes back.
-/

namespace Go

def beBytes : Nat → Nat → Bytes
  | 0, _ => []
  | n + 1, v => UInt8.ofNat (v / 256 ^ n) :: beBytes n v

def beNat : Bytes → Nat
  | [] => 0
  | b :: bs => b.toNat * 256 ^ bs.length + beNat bs

@[simp] theorem length_beBytes (n v : Nat) : (beBytes n v).length = n := by
  induction n with
  | zero => rfl
  | succ n ih => simp [beBytes, ih]

theorem beNat_lt (bs : Bytes) : beNat bs < 256 ^ bs.length := by
  induction bs with
  | nil => decide
  | cons b bs ih =>
    have hb : b.toNat + 1 ≤ 256 := b.toNat_lt
    calc beNat (b :: bs) < b.toNat * 256 ^ bs.length + 256 ^ bs.length := by
          show b.toNat * 256 ^ bs.length + beNat bs < _
          omega
      _ = (b.toNat + 1) * 256 ^ bs.length := by ring
      _ ≤ 256 * 256 ^ bs.length := Nat.mul_le_mul_right _ hb
      _ = 256 ^ (b :: bs).length := by rw [List.length_cons, Nat.pow_succ]; ring

/-- Reading `n` digits back gives the value modulo `256 ^ n`. -/
theorem beNat_beBytes (n v : Nat) : beNat (beBytes n v) = v % 256 ^ n := by
  induction n with
  | zero => simp [beBytes, beNat, Nat.mod_one]
  | succ n ih =>
    have hdigit : (UInt8.ofNat (v / 256 ^ n)).toNat = v / 256 ^ n % 256 := by simp
    rw [beBytes, beNat, length_beBytes, hdigit, ih, Nat.pow_succ, Nat.mod_mul]
    ring

/-- Digits above the first `n` do not matter. -/
theorem beBytes_add (n a v : Nat) : beBytes n (a * 256 ^ n + v) = beBytes n v := by
  induction n generalizing a with
  | zero => rfl
  | succ n ih =>
    have hsplit : a * 256 ^ (n + 1) + v = (a * 256) * 256 ^ n + v := by ring
    have hpos : 0 < 256 ^ n := Nat.pow_pos (by decide)
    rw [beBytes, beBytes, hsplit, ih]
    congr 1
    rw [Nat.add_comm, Nat.add_mul_div_right _ _ hpos]
    apply UInt8.toNat_inj.mp
    simp

theorem beBytes_beNat (bs : Bytes) : beBytes bs.length (beNat bs) = bs := by
  induction bs with
  | nil => rfl
  | cons b bs ih =>
    have hlt := beNat_lt bs
    have hpos : 0 < 256 ^ bs.length := Nat.pow_pos (by decide)
    have hdiv : (b.toNat * 256 ^ bs.length + beNat bs) / 256 ^ bs.length = b.toNat := by
      rw [Nat.add_comm, Nat.add_mul_div_right _ _ hpos, Nat.div_eq_of_lt hlt, Nat.zero_add]
    rw [List.length_cons, beBytes, beNat, hdiv, beBytes_add, ih]
    simp

/-! ## 64-bit numbers -/

/-- `binary.BigEndian.PutUint64`. -/
def putUint64 (x : UInt64) : Bytes := beBytes 8 x.toNat

/-- `binary.BigEndian.Uint64`, on eight bytes. -/
def uint64 (bs : Bytes) : UInt64 := UInt64.ofNat (beNat bs)

@[simp] theorem length_putUint64 (x : UInt64) : (putUint64 x).length = 8 := length_beBytes 8 _

@[simp] theorem uint64_putUint64 (x : UInt64) : uint64 (putUint64 x) = x := by
  have hx : x.toNat < 256 ^ 8 := x.toNat_lt
  rw [uint64, putUint64, beNat_beBytes, Nat.mod_eq_of_lt hx, UInt64.ofNat_toNat]

theorem putUint64_uint64 {bs : Bytes} (h : bs.length = 8) : putUint64 (uint64 bs) = bs := by
  have hlt := beNat_lt bs
  rw [h] at hlt
  have hnat : (uint64 bs).toNat = beNat bs := by
    rw [uint64, UInt64.toNat_ofNat']
    exact Nat.mod_eq_of_lt hlt
  rw [putUint64, hnat, ← h, beBytes_beNat]

/-! ### Two numbers in 16 bytes -/

theorem uint64_take_pair (x y : UInt64) : uint64 ((putUint64 x ++ putUint64 y).take 8) = x := by
  rw [List.take_left' (length_putUint64 x), uint64_putUint64]

theorem uint64_drop_pair (x y : UInt64) : uint64 ((putUint64 x ++ putUint64 y).drop 8) = y := by
  rw [List.drop_left' (length_putUint64 x), uint64_putUint64]

theorem putUint64_pair {bs : Bytes} (h : bs.length = 16) :
    putUint64 (uint64 (bs.take 8)) ++ putUint64 (uint64 (bs.drop 8)) = bs := by
  have htake : (bs.take 8).length = 8 := by rw [List.length_take]; omega
  have hdrop : (bs.drop 8).length = 8 := by rw [List.length_drop]; omega
  rw [putUint64_uint64 htake, putUint64_uint64 hdrop, List.take_append_drop]

/-! ## 32-bit and 16-bit numbers -/

/-- `binary.BigEndian.PutUint32`. -/
def putUint32 (x : UInt32) : Bytes := beBytes 4 x.toNat

/-- `binary.BigEndian.Uint32`, on four bytes. -/
def uint32 (bs : Bytes) : UInt32 := UInt32.ofNat (beNat bs)

@[simp] theorem length_putUint32 (x : UInt32) : (putUint32 x).length = 4 := length_beBytes 4 _

@[simp] theorem uint32_putUint32 (x : UInt32) : uint32 (putUint32 x) = x := by
  have hx : x.toNat < 256 ^ 4 := x.toNat_lt
  rw [uint32, putUint32, beNat_beBytes, Nat.mod_eq_of_lt hx, UInt32.ofNat_toNat]

/-- `binary.BigEndian.PutUint16`. -/
def putUint16 (x : UInt16) : Bytes := beBytes 2 x.toNat

/-- `binary.BigEndian.Uint16`, on two bytes. -/
def uint16 (bs : Bytes) : UInt16 := UInt16.ofNat (beNat bs)

@[simp] theorem length_putUint16 (x : UInt16) : (putUint16 x).length = 2 := length_beBytes 2 _

@[simp] theorem uint16_putUint16 (x : UInt16) : uint16 (putUint16 x) = x := by
  have hx : x.toNat < 256 ^ 2 := x.toNat_lt
  rw [uint16, putUint16, beNat_beBytes, Nat.mod_eq_of_lt hx, UInt16.ofNat_toNat]

end Go
