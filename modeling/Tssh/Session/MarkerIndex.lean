import Tssh.Session.PendingInput
import Mathlib.Order.Bounds.Basic

/-! # Marker Indices

    Every discard marker ends in a 32-bit index, and the marker may travel through tmux, for
    which `;` and carriage return end a command.  `getNextDiscardMarkerIndex` in
    `tsshd/session.go` therefore counts up and skips the numbers with such a byte.  The loop
    repairs only the **most significant** separator byte and returns at once.  That is
    enough: the byte is counted up without a carry, all bytes below it start again at
    zero, and every number that was skipped has the separator in the same place.

    * `next_index_least`: the number that is returned and stored is the least one after the
      current one without a separator byte, so the markers made before the counter wraps are
      distinct and no marker contains a separator.
-/

open Go

namespace Pending

/-! ## The call as the code makes it -/

/-- The `for` loop with `discardMarkerCurrentIndex` as its state; the list contains the values
    that `i` takes. -/
def skipLoop : List Nat → StateM UInt32 UInt32
  | [] => get
  | i :: rest => do
    let shift := UInt32.ofNat (i * 8)
    let b := ((← get) >>> shift) &&& 0xFF
    if b = 0x3B ∨ b = 0x0D then
      modify fun index => ((index >>> shift) + 1) <<< shift
      get
    else skipLoop rest

/-- The call on the variable `discardMarkerCurrentIndex`, under its mutex. -/
def nextDiscardMarkerIndex : StateM UInt32 UInt32 := do
  modify (· + 1)
  skipLoop [3, 2, 1, 0]

theorem skipLoop_run (i : Nat) (index : UInt32) :
    (skipLoop (List.range i).reverse).run index = (skipBytes index i, skipBytes index i) := by
  induction i with
  | zero => rfl
  | succ i ih =>
    rw [List.range_succ, List.reverse_concat, skipLoop, skipBytes]
    generalize UInt32.ofNat (i * 8) = shift
    by_cases hb : index >>> shift &&& 0xFF = 0x3B ∨ index >>> shift &&& 0xFF = 0x0D
    · simp [hb]
      rfl
    · simpa [hb] using ih

/-- The call returns what it stores. -/
theorem nextDiscardMarkerIndex_run (v : UInt32) :
    nextDiscardMarkerIndex.run v = (getNextDiscardMarkerIndex v, getNextDiscardMarkerIndex v) :=
  skipLoop_run 4 (v + 1)

/-! ## Base-256 digits -/

/-- Digit `i` of `n`, the least significant one first. -/
def digit (n i : Nat) : Nat := n / 256 ^ i % 256

/-- A command separator of tmux. -/
def IsSeparator (b : Nat) : Prop := b = 0x3B ∨ b = 0x0D

instance (b : Nat) : Decidable (IsSeparator b) := inferInstanceAs (Decidable (_ ∨ _))

/-- `n` with digit `i` counted up and the digits below it set to zero. -/
def bump (n i : Nat) : Nat := (n / 256 ^ i + 1) * 256 ^ i

theorem lt_bump (n i : Nat) : n < bump n i := by
  have hpos : 0 < 256 ^ i := Nat.pow_pos (by decide)
  exact Nat.lt_mul_of_div_lt (Nat.lt_succ_self _) hpos

/-- Between `n` and `bump n i` the digit `i` stays as it is. -/
theorem digit_of_lt_bump {n m i : Nat} (hn : n ≤ m) (hm : m < bump n i) :
    digit m i = digit n i := by
  have hpos : 0 < 256 ^ i := Nat.pow_pos (by decide)
  have hle : n / 256 ^ i ≤ m / 256 ^ i := Nat.div_le_div_right hn
  have hlt : m / 256 ^ i < n / 256 ^ i + 1 := (Nat.div_lt_iff_lt_mul hpos).mpr hm
  have heq : m / 256 ^ i = n / 256 ^ i := by omega
  rw [digit, digit, heq]

variable {i j n : Nat}

theorem digit_bump_below (h : j < i) : digit (bump n i) j = 0 := by
  have hsplit : 256 ^ i = 256 ^ (i - j - 1) * 256 * 256 ^ j := by
    rw [← Nat.pow_succ, ← Nat.pow_add]
    congr 1
    omega
  have hpos : 0 < 256 ^ j := Nat.pow_pos (by decide)
  rw [digit, bump, hsplit, ← Nat.mul_assoc, Nat.mul_div_cancel _ hpos, ← Nat.mul_assoc]
  exact Nat.mul_mod_left _ _

theorem digit_bump_self (n i : Nat) (h : digit n i < 255) :
    digit (bump n i) i = digit n i + 1 := by
  have hpos : 0 < 256 ^ i := Nat.pow_pos (by decide)
  rw [digit] at h
  rw [digit, bump, Nat.mul_div_cancel _ hpos, digit]
  omega

/-- Counting up a digit below 255 does not carry. -/
theorem digit_bump_above (h : digit n i < 255) (hij : i < j) : digit (bump n i) j = digit n j := by
  have hsplit : 256 ^ j = 256 ^ i * (256 * 256 ^ (j - i - 1)) := by
    rw [← Nat.pow_succ', ← Nat.pow_add]
    congr 1
    omega
  have hpos : 0 < 256 ^ i := Nat.pow_pos (by decide)
  have hcarry : (n / 256 ^ i + 1) / 256 = n / 256 ^ i / 256 := by
    rw [digit] at h
    omega
  have hdiv : bump n i / 256 ^ j = n / 256 ^ j := by
    rw [hsplit, ← Nat.div_div_eq_div_mul, ← Nat.div_div_eq_div_mul, bump,
      Nat.mul_div_cancel _ hpos, ← Nat.div_div_eq_div_mul, ← Nat.div_div_eq_div_mul, hcarry]
  rw [digit, hdiv, digit]

/-! ## What the loop finds -/

/-- No digit of a four-digit number is a separator. -/
def NoSeparator (n : Nat) : Prop := ∀ i < 4, ¬ IsSeparator (digit n i)

theorem not_separator_succ {b : Nat} (h : IsSeparator b) : ¬ IsSeparator (b + 1) := by
  unfold IsSeparator at *
  omega

/-- If digit `i` is the most significant separator of `n`, then `bump n i` has none. -/
theorem noSeparator_bump (hsep : IsSeparator (digit n i))
    (habove : ∀ j < 4, i < j → ¬ IsSeparator (digit n j)) : NoSeparator (bump n i) := by
  have hsmall : digit n i < 255 := by
    rcases hsep with h | h <;> omega
  intro j hj
  rcases Nat.lt_trichotomy j i with hlt | rfl | hgt
  · rw [digit_bump_below hlt]
    decide
  · rw [digit_bump_self n j hsmall]
    exact not_separator_succ hsep
  · rw [digit_bump_above hsmall hgt]
    exact habove j hj hgt

/-- The digit that is counted up leaves the number below `2 ^ 32`. -/
theorem bump_lt (hi : i < 4) (hn : n < 2 ^ 32) (h : digit n i < 255) : bump n i < 2 ^ 32 := by
  have hsplit : (2 : Nat) ^ 32 = 256 * 256 ^ (3 - i) * 256 ^ i := by
    rw [← Nat.pow_succ', ← Nat.pow_add]
    have hfour : 3 - i + 1 + i = 4 := by omega
    rw [hfour]
    rfl
  have hpos : 0 < 256 ^ i := Nat.pow_pos (by decide)
  have hq : n / 256 ^ i < 256 * 256 ^ (3 - i) := by
    rw [hsplit] at hn
    exact (Nat.div_lt_iff_lt_mul hpos).mpr hn
  -- the quotient is not the last one before the bound, since its own last digit is not 255
  have hne : n / 256 ^ i + 1 ≠ 256 * 256 ^ (3 - i) := by
    rw [digit] at h
    omega
  rw [bump, hsplit]
  exact Nat.mul_lt_mul_of_pos_right (by omega) hpos

theorem toNat_shift (hi : i < 4) : (UInt32.ofNat (i * 8)).toNat % 32 = i * 8 := by
  rw [UInt32.toNat_ofNat']
  omega

theorem toNat_byte (hi : i < 4) (index : UInt32) :
    (index >>> UInt32.ofNat (i * 8) &&& 0xFF).toNat = digit index.toNat i := by
  have hpow : 2 ^ (i * 8) = 256 ^ i := by
    rw [Nat.mul_comm, Nat.pow_mul]
  rw [UInt32.toNat_and, UInt32.toNat_shiftRight, toNat_shift hi, Nat.shiftRight_eq_div_pow, hpow]
  exact Nat.and_two_pow_sub_one_eq_mod _ 8

theorem toNat_bump (hi : i < 4) (index : UInt32) (h : digit index.toNat i < 255) :
    ((index >>> UInt32.ofNat (i * 8) + 1) <<< UInt32.ofNat (i * 8)).toNat =
      bump index.toNat i := by
  have hpow : 2 ^ (i * 8) = 256 ^ i := by
    rw [Nat.mul_comm, Nat.pow_mul]
  have hlt := bump_lt hi index.toNat_lt h
  have hq : index.toNat / 256 ^ i + 1 < 2 ^ 32 := by
    have hpos : 0 < 256 ^ i := Nat.pow_pos (by decide)
    exact Nat.lt_of_le_of_lt (Nat.le_mul_of_pos_right _ hpos) hlt
  have hsucc : (index >>> UInt32.ofNat (i * 8) + 1).toNat = index.toNat / 256 ^ i + 1 := by
    rw [UInt32.toNat_add, UInt32.toNat_shiftRight, toNat_shift hi, Nat.shiftRight_eq_div_pow, hpow]
    exact Nat.mod_eq_of_lt hq
  rw [UInt32.toNat_shiftLeft, toNat_shift hi, hsucc, Nat.shiftLeft_eq, hpow]
  exact Nat.mod_eq_of_lt hlt

/-- The separator test of the loop is the one on digits. -/
theorem separator_iff (hi : i < 4) (index : UInt32) :
    (index >>> UInt32.ofNat (i * 8) &&& 0xFF = 0x3B ∨
      index >>> UInt32.ofNat (i * 8) &&& 0xFF = 0x0D) ↔ IsSeparator (digit index.toNat i) := by
  rw [← toNat_byte hi, ← UInt32.toNat_inj, ← UInt32.toNat_inj]
  rfl

/-- **Loop lemma.**  If the digits from `i` on are no separators, the rest of the loop finds
    the least number from `index` on without separators. -/
theorem skipBytes_least (hi : i ≤ 4) (index : UInt32)
    (habove : ∀ j < 4, i ≤ j → ¬ IsSeparator (digit index.toNat j)) :
    NoSeparator (skipBytes index i).toNat ∧ index.toNat ≤ (skipBytes index i).toNat ∧
      ∀ m, index.toNat ≤ m → NoSeparator m → (skipBytes index i).toNat ≤ m := by
  induction i with
  | zero =>
    exact ⟨fun j hj => habove j hj (Nat.zero_le j), Nat.le_refl _, fun m hm _ => hm⟩
  | succ i ih =>
    simp only [skipBytes, separator_iff (Nat.lt_of_succ_le hi)]
    by_cases hsep : IsSeparator (digit index.toNat i)
    · have hsmall : digit index.toNat i < 255 := by
        rcases hsep with h | h <;> omega
      rw [if_pos hsep, toNat_bump (by omega) index hsmall]
      refine ⟨noSeparator_bump hsep habove, Nat.le_of_lt (lt_bump _ _), ?_⟩
      -- a smaller number still has the separator at digit `i`
      intro m hle hm
      by_contra hlt
      have hdigit := digit_of_lt_bump hle (Nat.lt_of_not_le hlt)
      exact hm i (by omega) (by rwa [hdigit])
    · rw [if_neg hsep]
      apply ih (by omega)
      intro j hj hij
      rcases Nat.eq_or_lt_of_le hij with rfl | hlt
      · exact hsep
      · exact habove j hj hlt

/-! ## The bytes of an index -/

theorem mem_beBytes {n v : Nat} {b : UInt8} (h : b ∈ beBytes n v) :
    ∃ i < n, b.toNat = digit v i := by
  induction n with
  | zero => cases h
  | succ n ih =>
    rcases List.mem_cons.mp h with rfl | htail
    · exact ⟨n, Nat.lt_succ_self n, by simp [digit]⟩
    · obtain ⟨i, hi, hb⟩ := ih htail
      exact ⟨i, Nat.lt_succ_of_lt hi, hb⟩

theorem digit_mem_beBytes {n v i : Nat} (h : i < n) :
    UInt8.ofNat (v / 256 ^ i) ∈ beBytes n v := by
  induction n with
  | zero => omega
  | succ n ih =>
    rcases Nat.eq_or_lt_of_le (Nat.le_of_lt_succ h) with rfl | hlt
    · exact List.mem_cons_self
    · exact List.mem_cons_of_mem _ (ih hlt)

/-- None of the bytes is `;` or carriage return. -/
def SeparatorFree (bs : Bytes) : Prop := ∀ b ∈ bs, b ≠ 0x3B ∧ b ≠ 0x0D

instance (bs : Bytes) : Decidable (SeparatorFree bs) :=
  List.decidableBAll (fun b => b ≠ 0x3B ∧ b ≠ 0x0D) bs

theorem separatorFree_iff (m : UInt32) : SeparatorFree (putUint32 m) ↔ NoSeparator m.toNat := by
  constructor
  · intro h i hi hsep
    have hb := h _ (digit_mem_beBytes (v := m.toNat) hi)
    rw [Ne, Ne, ← UInt8.toNat_inj, ← UInt8.toNat_inj] at hb
    rcases hsep with hd | hd
    · exact hb.1 (by simpa [digit] using hd)
    · exact hb.2 (by simpa [digit] using hd)
  · intro h b hb
    obtain ⟨i, hi, hd⟩ := mem_beBytes hb
    have hno := h i hi
    rw [← hd] at hno
    constructor
    · rintro rfl
      exact hno (.inl rfl)
    · rintro rfl
      exact hno (.inr rfl)

/-! ## Successive markers -/

/-- The number the loop starts at: the next one, or zero after the last one. -/
theorem lt_iff_succ_le {v m : UInt32} :
    (v + 1).toNat ≤ m.toNat ↔ v < m ∨ v = 0xFFFFFFFF := by
  have hv := v.toNat_lt
  have hm := m.toNat_lt
  rw [UInt32.lt_iff_toNat_lt, ← UInt32.toNat_inj, UInt32.toNat_add]
  show (v.toNat + 1) % 2 ^ 32 ≤ m.toNat ↔ v.toNat < m.toNat ∨ v.toNat = 4294967295
  omega

/-- **Step lemma.**  One call finds the least index without separators. -/
theorem getNextDiscardMarkerIndex_isLeast (v : UInt32) :
    IsLeast {m | (v < m ∨ v = 0xFFFFFFFF) ∧ SeparatorFree (putUint32 m)}
      (getNextDiscardMarkerIndex v) := by
  have hnone : ∀ j < 4, 4 ≤ j → ¬ IsSeparator (digit (v + 1).toNat j) := by
    intro j hj hle
    omega
  obtain ⟨hfree, hle, hleast⟩ := skipBytes_least (Nat.le_refl 4) (v + 1) hnone
  constructor
  · exact ⟨lt_iff_succ_le.mp hle, (separatorFree_iff _).mpr hfree⟩
  · rintro m ⟨hlt, hm⟩
    exact UInt32.le_iff_toNat_le.mpr
      (hleast m.toNat (lt_iff_succ_le.mpr hlt) ((separatorFree_iff m).mp hm))

/-- The index of the marker number `n` that is made after the counter was `v`. -/
def indexAfter (v : UInt32) (n : Nat) : UInt32 := getNextDiscardMarkerIndex^[n + 1] v

theorem indexAfter_succ (v : UInt32) (n : Nat) :
    indexAfter v (n + 1) = getNextDiscardMarkerIndex (indexAfter v n) :=
  Function.iterate_succ_apply' _ _ _

/-- **Run lemma.**  The indices grow until the counter is at its maximum. -/
theorem indexAfter_lt (v : UInt32) (hij : i < j)
    (hwrap : ∀ k, i ≤ k → k < j → indexAfter v k ≠ 0xFFFFFFFF) :
    indexAfter v i < indexAfter v j := by
  induction hij with
  | refl =>
    rw [indexAfter_succ]
    rcases (getNextDiscardMarkerIndex_isLeast (indexAfter v i)).1.1 with hlt | hmax
    · exact hlt
    · exact absurd hmax (hwrap i (Nat.le_refl i) (Nat.lt_succ_self i))
  | @step j hij ih =>
    have hbefore := ih fun k hk hkj => hwrap k hk (Nat.lt_succ_of_lt hkj)
    rw [indexAfter_succ]
    rcases (getNextDiscardMarkerIndex_isLeast (indexAfter v j)).1.1 with hlt | hmax
    · exact UInt32.lt_trans hbefore hlt
    · exact absurd hmax (hwrap j (Nat.le_of_succ_le hij) (Nat.lt_succ_self j))

theorem Marker.index_eq_of_bytes {m m' : Marker} (h : m.bytes = m'.bytes) :
    m.index = m'.index := by
  have hput := List.append_cancel_left h
  rw [← uint32_putUint32 m.index, hput, uint32_putUint32]

theorem separatorFree_marker (m : Marker) (h : SeparatorFree (putUint32 m.index)) :
    SeparatorFree m.bytes := by
  have hhead : SeparatorFree [0xFF, 0xC0, 0xC1, 0xFF] := by decide
  intro b hb
  rcases List.mem_append.mp hb with hfirst | hindex
  · exact hhead b hfirst
  · exact h b hindex

/-- **Least index.**  The call returns and stores the least index after the current one without
    a byte that separates commands of tmux, or the least one at all after the maximum.  Hence
    the markers made before the counter wraps are distinct, and none contains a separator. -/
theorem next_index_least (v : UInt32) :
    nextDiscardMarkerIndex.run v = (getNextDiscardMarkerIndex v, getNextDiscardMarkerIndex v) ∧
    IsLeast {m | (v < m ∨ v = 0xFFFFFFFF) ∧ SeparatorFree (putUint32 m)}
      (getNextDiscardMarkerIndex v) ∧
    (∀ a b i j, i < j → (∀ k, i ≤ k → k < j → indexAfter v k ≠ 0xFFFFFFFF) →
      (Marker.mk a (indexAfter v i)).bytes ≠ (Marker.mk b (indexAfter v j)).bytes) ∧
    ∀ a i, SeparatorFree (Marker.mk a (indexAfter v i)).bytes := by
  refine ⟨nextDiscardMarkerIndex_run v, getNextDiscardMarkerIndex_isLeast v, ?_, ?_⟩
  · intro a b i j hij hwrap hbytes
    have hlt := indexAfter_lt v hij hwrap
    have heq := Marker.index_eq_of_bytes hbytes
    exact UInt32.ne_of_lt hlt heq
  · intro a i
    apply separatorFree_marker
    show SeparatorFree (putUint32 (getNextDiscardMarkerIndex^[i + 1] v))
    rw [Function.iterate_succ_apply']
    exact (getNextDiscardMarkerIndex_isLeast _).1.2

end Pending
