import Mathlib.Algebra.Group.Action.Defs
import Mathlib.Algebra.Order.BigOperators.Group.List
import Mathlib.Algebra.Order.Ring.Nat
import Mathlib.Data.List.Infix

/-! # Finding and Removing a Pattern in a List

    `removeAll pat l` removes the occurrences of `pat` from `l` in one scan from
    left to right, as Go's `bytes.ReplaceAll(l, pat, nil)` does.  The results are
    about removing from the pieces of a list instead of from the whole:

    * `removeAll_append`: two pieces can be treated apart if no occurrence lies
      across their boundary (`Straddles`).
    * `flatMap_removeAll_eq_iff`: for a pattern that does not overlap itself
      (`Unbordered`), treating the pieces apart gives the same result **if and
      only if** no occurrence lies across any boundary.
    * `flatMap_removeAll_blocks_iff`: the same for pieces of equal length.

    `indexOf pat l` is the position of the first occurrence, as in `bytes.Index`.
-/

namespace Pattern

variable {α : Type} [DecidableEq α] {pat : List α}

/-! ## Definitions -/

/-- The scan; the first argument counts the elements of a found occurrence that are
    still to be skipped. -/
def removeScan (pat : List α) : Nat → List α → List α
  | _, [] => []
  | skip + 1, _ :: l => removeScan pat skip l
  | 0, x :: l =>
      if pat <+: x :: l then removeScan pat (pat.length - 1) l else x :: removeScan pat 0 l

/-- Remove every occurrence of `pat`. -/
def removeAll (pat l : List α) : List α := removeScan pat 0 l

/-- Some occurrence of `pat` begins in `a` and ends in `b`, where `b` follows `a`. -/
def Straddles (pat a b : List α) : Prop :=
  ∃ k, 0 < k ∧ k < pat.length ∧ pat.take k <:+ a ∧ pat.drop k <+: b

/-- No proper suffix of the pattern is one of its prefixes. -/
def Unbordered (pat : List α) : Prop :=
  ∀ k, 0 < k → k < pat.length → ¬ pat.drop k <+: pat

instance (a b : List α) : Decidable (Straddles pat a b) :=
  decidable_of_iff (∃ k < pat.length, 0 < k ∧ pat.take k <:+ a ∧ pat.drop k <+: b)
    ⟨fun ⟨k, hk, hpos, h⟩ => ⟨k, hpos, hk, h⟩, fun ⟨k, hpos, hk, h⟩ => ⟨k, hk, hpos, h⟩⟩

instance : Decidable (Unbordered pat) :=
  decidable_of_iff (∀ k < pat.length, 0 < k → ¬ pat.drop k <+: pat)
    ⟨fun h k hpos hk => h k hk hpos, fun h k hk hpos => h k hpos hk⟩

/-! ## The scan -/

@[simp] theorem removeAll_nil : removeAll pat [] = [] := rfl

theorem removeScan_eq_drop (skip : Nat) (l : List α) :
    removeScan pat skip l = removeAll pat (l.drop skip) := by
  induction skip generalizing l with
  | zero => rfl
  | succ skip ih =>
    match l with
    | [] => rfl
    | _ :: l => exact ih l

/-- At an occurrence the scan goes on behind it. -/
theorem removeAll_pattern_append (hpat : pat ≠ []) (l : List α) :
    removeAll pat (pat ++ l) = removeAll pat l := by
  obtain ⟨x, xs, rfl⟩ := List.exists_cons_of_ne_nil hpat
  show removeScan _ 0 (x :: (xs ++ l)) = _
  rw [removeScan, if_pos (show x :: xs <+: x :: (xs ++ l) from List.prefix_append (x :: xs) l),
    removeScan_eq_drop]
  simp

variable {a b l : List α}

/-- Where no occurrence begins the scan keeps the element. -/
theorem removeAll_cons {x : α} (h : ¬ pat <+: x :: l) :
    removeAll pat (x :: l) = x :: removeAll pat l := by
  show removeScan pat 0 (x :: l) = _
  rw [removeScan, if_neg h]
  rfl

/-- **Scan induction**: the list is empty, begins with an occurrence, or begins with an
    element that is kept. -/
theorem scan_induction (hpat : pat ≠ []) {P : List α → Prop} (nil : P [])
    (found : ∀ l, P l → P (pat ++ l))
    (keep : ∀ x l, ¬ pat <+: x :: l → P l → P (x :: l)) (l : List α) : P l := by
  induction hn : l.length using Nat.strongRecOn generalizing l with
  | ind n ih =>
    match l with
    | [] => exact nil
    | x :: l =>
      by_cases hx : pat <+: x :: l
      · obtain ⟨rest, hrest⟩ := hx
        have hlen : 0 < pat.length := List.length_pos_of_ne_nil hpat
        have hshort : rest.length < n := by
          have := congrArg List.length hrest
          simp only [List.length_append, List.length_cons] at this hn
          omega
        rw [← hrest]
        exact found rest (ih _ hshort rest rfl)
      · exact keep x l hx (ih l.length (by simp only [List.length_cons] at hn; omega) l rfl)

theorem removeAll_sublist (hpat : pat ≠ []) (l : List α) : (removeAll pat l).Sublist l := by
  induction l using scan_induction hpat with
  | nil => exact List.Sublist.slnil
  | found l ih =>
    rw [removeAll_pattern_append hpat]
    exact ih.trans (List.sublist_append_right pat l)
  | keep x l hx ih =>
    rw [removeAll_cons hx]
    exact ih.cons_cons x

/-- A list that is too short for the pattern is kept. -/
theorem removeAll_short (h : l.length < pat.length) : removeAll pat l = l := by
  induction l with
  | nil => rfl
  | cons x l ih =>
    have hx : ¬ pat <+: x :: l := fun hp => by
      have := hp.length_le
      omega
    rw [removeAll_cons hx, ih (by simp only [List.length_cons] at h; omega)]

/-! ## Two pieces -/

omit [DecidableEq α] in
theorem Straddles.mono {a b c : List α} (h : Straddles pat a b) : Straddles pat (c ++ a) b := by
  obtain ⟨k, hpos, hlt, ha, hb⟩ := h
  exact ⟨k, hpos, hlt, ha.trans (List.suffix_append c a), hb⟩

omit [DecidableEq α] in
theorem not_straddles_nil (b : List α) : ¬ Straddles pat [] b := by
  rintro ⟨k, hpos, hlt, ha, -⟩
  have hle := ha.length_le
  simp only [List.length_take, List.length_nil] at hle
  omega

omit [DecidableEq α] in
theorem not_straddles_right_nil (a : List α) : ¬ Straddles pat a [] := by
  rintro ⟨k, -, hlt, -, hb⟩
  have hle := hb.length_le
  simp only [List.length_drop, List.length_nil] at hle
  omega

omit [DecidableEq α] in
/-- An element outside the pattern at the end of the first piece separates the pieces. -/
theorem not_straddles_of_notMem {x : α} (hx : x ∉ pat) : ¬ Straddles pat (a ++ [x]) b := by
  rintro ⟨k, hpos, hlt, ha, -⟩
  have hne : pat.take k ≠ [] := by
    apply List.ne_nil_of_length_pos
    rw [List.length_take]
    omega
  have hlast : (pat.take k).getLast hne = x := by
    rw [ha.getLast hne]
    simp
  exact hx (hlast ▸ List.mem_of_mem_take (List.getLast_mem hne))

omit [DecidableEq α] in
/-- An occurrence at the start of two pieces lies in the first one or straddles. -/
theorem prefix_append_cases (ha : a ≠ []) (h : pat <+: a ++ b) : pat <+: a ∨ Straddles pat a b := by
  obtain ⟨t, ht⟩ := h
  rcases List.append_eq_append_iff.mp ht with ⟨c, hc, -⟩ | ⟨c, hc, hb⟩
  · exact .inl ⟨c, hc.symm⟩
  · by_cases hnil : c = []
    · exact .inl ⟨[], by simp [hc, hnil]⟩
    · refine .inr ⟨a.length, List.length_pos_of_ne_nil ha, ?_, ?_, ?_⟩
      · rw [hc, List.length_append]
        have := List.length_pos_of_ne_nil hnil
        omega
      · simp [hc]
      · simp [hc, hb]

/-- **Separate removal**: pieces without an occurrence across their boundary can be
    treated apart. -/
theorem removeAll_append (hpat : pat ≠ []) (h : ¬ Straddles pat a b) :
    removeAll pat (a ++ b) = removeAll pat a ++ removeAll pat b := by
  induction a using scan_induction hpat with
  | nil => rfl
  | found l ih =>
    rw [List.append_assoc, removeAll_pattern_append hpat, removeAll_pattern_append hpat]
    exact ih (fun hs => h hs.mono)
  | keep x l hx ih =>
    have hx' : ¬ pat <+: x :: (l ++ b) := fun hp =>
      (prefix_append_cases (List.cons_ne_nil x l) hp).elim hx h
    rw [List.cons_append, removeAll_cons hx', removeAll_cons hx, List.cons_append,
      ih (fun hs => h (hs.mono (c := [x])))]

section Unbordered

variable (hu : Unbordered pat)
include hu

omit [DecidableEq α] in
/-- No prefix of an unbordered pattern is one of its suffixes. -/
theorem Unbordered.not_take_suffix {k : Nat} (hpos : 0 < k) (hlt : k < pat.length) :
    ¬ pat.take k <:+ pat := by
  intro hs
  apply hu (pat.length - k) (by omega) (by omega)
  have hlen : (pat.take k).length = k := by
    rw [List.length_take]
    omega
  have heq := List.suffix_iff_eq_drop.mp hs
  rw [hlen] at heq
  exact heq ▸ List.take_prefix k pat

omit [DecidableEq α] in
/-- No occurrence reaches into a piece that begins with the start of another one. -/
theorem Unbordered.not_straddles_left {a p b : List α} (hp : p <+: pat)
    (hlong : p = pat ∨ b = []) : ¬ Straddles pat a (p ++ b) := by
  rintro ⟨k, hpos, hlt, -, hb⟩
  have hin : pat.drop k <+: p := by
    rcases hlong with rfl | rfl
    · exact List.prefix_of_prefix_length_le hb (List.prefix_append _ _) (by simp)
    · simpa using hb
  exact hu k hpos hlt (hin.trans hp)

omit [DecidableEq α] in
/-- No occurrence begins in a piece that is the rest of another one. -/
theorem Unbordered.not_straddles_right {p b : List α} (hp : p <:+ pat) :
    ¬ Straddles pat p b := by
  rintro ⟨k, hpos, hlt, ha, -⟩
  exact hu.not_take_suffix hpos hlt (ha.trans hp)

/-- Where an occurrence lies across the boundary, treating the pieces apart leaves it. -/
theorem length_removeAll_append_lt {a b : List α} (h : Straddles pat a b) :
    (removeAll pat (a ++ b)).length < (removeAll pat a).length + (removeAll pat b).length := by
  obtain ⟨k, hpos, hlt, ⟨a', rfl⟩, ⟨b', rfl⟩⟩ := h
  have hpat : pat ≠ [] := List.ne_nil_of_length_pos (by omega)
  have hwhole : removeAll pat (a' ++ pat.take k ++ (pat.drop k ++ b')) =
      removeAll pat a' ++ removeAll pat b' := by
    have hjoin : a' ++ pat.take k ++ (pat.drop k ++ b') = a' ++ (pat ++ b') := by
      rw [List.append_assoc, ← List.append_assoc (pat.take k), List.take_append_drop]
    rw [hjoin, removeAll_append hpat (hu.not_straddles_left List.prefix_rfl (.inl rfl)),
      removeAll_pattern_append hpat]
  have hleft : removeAll pat (a' ++ pat.take k) = removeAll pat a' ++ pat.take k := by
    have hno : ¬ Straddles pat a' (pat.take k ++ []) :=
      hu.not_straddles_left (List.take_prefix k pat) (.inr rfl)
    rw [List.append_nil] at hno
    have hshort : (pat.take k).length < pat.length := by
      rw [List.length_take]
      omega
    rw [removeAll_append hpat hno, removeAll_short hshort]
  have hright : removeAll pat (pat.drop k ++ b') = pat.drop k ++ removeAll pat b' := by
    have hshort : (pat.drop k).length < pat.length := by
      rw [List.length_drop]
      omega
    rw [removeAll_append hpat (hu.not_straddles_right (List.drop_suffix k pat)),
      removeAll_short hshort]
  rw [hwhole, hleft, hright]
  simp only [List.length_append, List.length_take, List.length_drop]
  omega

theorem length_removeAll_append_le (hpat : pat ≠ []) (a b : List α) :
    (removeAll pat (a ++ b)).length ≤ (removeAll pat a).length + (removeAll pat b).length := by
  by_cases h : Straddles pat a b
  · exact (length_removeAll_append_lt hu h).le
  · rw [removeAll_append hpat h, List.length_append]

/-! ## Many pieces -/

theorem length_removeAll_flatten_le (hpat : pat ≠ []) (pieces : List (List α)) :
    (removeAll pat pieces.flatten).length ≤ (pieces.flatMap (removeAll pat)).length := by
  induction pieces with
  | nil => simp
  | cons p ps ih =>
    have happend := length_removeAll_append_le hu hpat p ps.flatten
    simp only [List.flatten_cons, List.flatMap_cons, List.length_append]
    omega

/-- **Exact condition for piecewise removal**: treating the pieces apart removes every
    occurrence if and only if none lies across a boundary. -/
theorem flatMap_removeAll_eq_iff (hpat : pat ≠ []) (pieces : List (List α)) :
    pieces.flatMap (removeAll pat) = removeAll pat pieces.flatten ↔
      ∀ xs ys, pieces = xs ++ ys → ¬ Straddles pat xs.flatten ys.flatten := by
  constructor
  · rintro heq xs ys rfl hs
    -- an occurrence across a boundary survives, so the pieces keep more elements
    have hlt := length_removeAll_append_lt hu hs
    have hxs := length_removeAll_flatten_le hu hpat xs
    have hys := length_removeAll_flatten_le hu hpat ys
    have hlen := congrArg List.length heq
    simp only [List.flatMap_append, List.flatten_append, List.length_append] at hlen
    omega
  · intro h
    induction pieces with
    | nil => rfl
    | cons p ps ih =>
      have hps : ps.flatMap (removeAll pat) = removeAll pat ps.flatten := by
        apply ih
        intro xs ys hsplit hs
        exact h (p :: xs) ys (by rw [hsplit, List.cons_append]) hs.mono
      have hp : ¬ Straddles pat p ps.flatten := by
        simpa using h [p] ps rfl
      rw [List.flatMap_cons, List.flatten_cons, removeAll_append hpat hp, hps]

/-- **Pieces of equal length**: for pieces that all have length `n`, the last one perhaps
    excepted, the boundaries are the multiples of `n`. -/
theorem flatMap_removeAll_blocks_iff (hpat : pat ≠ []) {n : Nat} {pieces : List (List α)}
    (hle : ∀ p ∈ pieces, p.length ≤ n) (hfull : ∀ p ∈ pieces.dropLast, p.length = n) :
    pieces.flatMap (removeAll pat) = removeAll pat pieces.flatten ↔
      ∀ k, ¬ Straddles pat (pieces.flatten.take (n * k)) (pieces.flatten.drop (n * k)) := by
  rw [flatMap_removeAll_eq_iff hu hpat]
  -- the pieces before a boundary fill a multiple of `n`
  have hboundary : ∀ xs ys, pieces = xs ++ ys → ys ≠ [] →
      pieces.flatten.take (n * xs.length) = xs.flatten ∧
      pieces.flatten.drop (n * xs.length) = ys.flatten := by
    intro xs ys hsplit hys
    have hlen : xs.flatten.length = n * xs.length := by
      have hmem : ∀ p ∈ xs, p.length = n := by
        intro p hp
        apply hfull
        rw [hsplit, List.dropLast_append_of_ne_nil hys]
        exact List.mem_append_left _ hp
      rw [List.length_flatten, List.map_congr_left hmem, List.map_const', List.sum_replicate,
        smul_eq_mul, Nat.mul_comm]
    rw [hsplit, List.flatten_append, ← hlen]
    exact ⟨List.take_left, List.drop_left⟩
  constructor
  · intro h k
    by_cases hk : k < pieces.length
    · have hlen : (pieces.take k).length = k := by
        rw [List.length_take]
        omega
      have hne : pieces.drop k ≠ [] := by
        apply List.ne_nil_of_length_pos
        rw [List.length_drop]
        omega
      have hsplit := (List.take_append_drop k pieces).symm
      obtain ⟨htake, hdrop⟩ := hboundary _ _ hsplit hne
      rw [hlen] at htake hdrop
      rw [htake, hdrop]
      exact h _ _ hsplit
    · have hall : pieces.flatten.length ≤ n * k := by
        calc pieces.flatten.length = (pieces.map List.length).sum := List.length_flatten
          _ ≤ (pieces.map List.length).length • n := by
            apply List.sum_le_card_nsmul
            intro m hm
            obtain ⟨p, hp, rfl⟩ := List.mem_map.mp hm
            exact hle p hp
          _ = n * pieces.length := by rw [List.length_map, smul_eq_mul, Nat.mul_comm]
          _ ≤ n * k := Nat.mul_le_mul_left n (by omega)
      rw [List.drop_eq_nil_of_le hall]
      exact not_straddles_right_nil _
  · intro h xs ys hsplit
    by_cases hys : ys = []
    · rw [hys]
      exact not_straddles_right_nil _
    · obtain ⟨htake, hdrop⟩ := hboundary xs ys hsplit hys
      rw [← htake, ← hdrop]
      exact h xs.length

end Unbordered

/-! ## The first occurrence -/

/-- The position of the first occurrence of `pat`. -/
def indexOf (pat : List α) : List α → Option Nat
  | [] => if pat = [] then some 0 else none
  | x :: l => if pat <+: x :: l then some 0 else (indexOf pat l).map (· + 1)

theorem indexOf_eq_some {pos : Nat} (h : indexOf pat l = some pos) : pat <+: l.drop pos := by
  induction l generalizing pos with
  | nil =>
    simp only [indexOf] at h
    split at h
    · next hpat => simp [hpat]
    · cases h
  | cons x l ih =>
    simp only [indexOf] at h
    split at h
    · next hfound =>
      obtain rfl := Option.some.inj h
      exact hfound
    · obtain ⟨pos', hpos', rfl⟩ := Option.map_eq_some_iff.mp h
      exact ih hpos'

/-- A pattern that occurs is found. -/
theorem indexOf_isSome (h : pat <:+: l) : (indexOf pat l).isSome = true := by
  induction l with
  | nil =>
    have hpat := List.infix_nil.mp h
    simp [indexOf, hpat]
  | cons x l ih =>
    simp only [indexOf]
    split
    · rfl
    · next hnot =>
      rw [Option.isSome_map]
      exact ih ((List.infix_cons_iff.mp h).resolve_left hnot)

theorem indexOf_eq_none (h : indexOf pat l = none) : ¬ pat <:+: l := by
  intro hinfix
  have hsome := indexOf_isSome hinfix
  rw [h] at hsome
  cases hsome

/-- No occurrence begins before the one that is found. -/
theorem indexOf_first {pos : Nat} (h : indexOf pat l = some pos) :
    ∀ k < pos, ¬ pat <+: l.drop k := by
  induction l generalizing pos with
  | nil =>
    simp only [indexOf] at h
    split at h
    · obtain rfl := Option.some.inj h
      intro k hk
      omega
    · cases h
  | cons x l ih =>
    simp only [indexOf] at h
    split at h
    · obtain rfl := Option.some.inj h
      intro k hk
      omega
    · next hnot =>
      obtain ⟨pos', hpos', rfl⟩ := Option.map_eq_some_iff.mp h
      intro k hk
      match k with
      | 0 => exact hnot
      | k + 1 => exact ih hpos' k (by omega)

/-- What is found in the first part of a list is found in the whole. -/
theorem indexOf_append {pos : Nat} (h : indexOf pat l = some pos) (t : List α) :
    indexOf pat (l ++ t) = some pos := by
  induction l generalizing pos with
  | nil =>
    simp only [indexOf] at h
    split at h
    · next hpat =>
      obtain rfl := Option.some.inj h
      cases t <;> simp [indexOf, hpat]
    · cases h
  | cons x l ih =>
    simp only [indexOf] at h
    split at h
    · next hfound =>
      obtain rfl := Option.some.inj h
      have hwhole : pat <+: x :: (l ++ t) := hfound.trans (List.prefix_append (x :: l) t)
      simp only [List.cons_append, indexOf, if_pos hwhole]
    · next hnot =>
      obtain ⟨pos', hpos', rfl⟩ := Option.map_eq_some_iff.mp h
      have hlen : pat.length ≤ (x :: l).length := by
        have hle := (indexOf_eq_some hpos').length_le
        rw [List.length_drop] at hle
        simp only [List.length_cons]
        omega
      -- the pattern fits into the first part, so that an occurrence at `x` would be seen there
      have hwhole : ¬ pat <+: x :: (l ++ t) := fun hp =>
        hnot (List.prefix_of_prefix_length_le hp (List.prefix_append (x :: l) t) hlen)
      simp only [List.cons_append, indexOf, if_neg hwhole, ih hpos', Option.map_some]

end Pattern
