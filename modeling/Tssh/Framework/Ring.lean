import Mathlib.Data.List.Rotate
import Mathlib.Data.List.DropRight

/-! # Ring Buffers

    A ring keeps the last `n` values of a history in `n` slots and a cursor that stands at the
    oldest one.  Read from the cursor on, with one wrap, the slots are `slots.rotate idx`, and
    a ring is right for a history when that is `history.rtake n`.

    * `advance`: the cursor after a write.
    * `rotate_set`: what a write does to the order of reading.
    * `set_keeps_last`, `append_keeps_last`: a write to a full ring and to one that is still
      growing keep the ring right for the longer history.
    * `map_range_rotate`: the reading loop.
-/

namespace Ring

variable {α : Type} {slots history : List α} {idx n : Nat}

/-- The next slot, with the wrap. -/
def advance (n idx : Nat) : Nat := if idx + 1 ≥ n then 0 else idx + 1

theorem advance_lt (hn : 0 < n) (idx : Nat) : advance n idx < n := by
  unfold advance
  split <;> omega

/-! ## Writing -/

/-- Overwriting the oldest slot drops it in front and puts the new value at the end. -/
theorem rotate_set (hidx : idx < slots.length) (a : α) :
    (slots.set idx a).rotate (advance slots.length idx) = (slots.rotate idx).tail ++ [a] := by
  have hset : slots.set idx a = slots.take idx ++ a :: slots.drop (idx + 1) := by
    rw [List.set_eq_take_append_cons_drop, if_pos hidx]
  have hrot : (slots.rotate idx).tail = slots.drop (idx + 1) ++ slots.take idx := by
    rw [List.rotate_eq_drop_append_take (Nat.le_of_lt hidx), List.drop_eq_getElem_cons hidx]
    rfl
  rw [hrot]
  unfold advance
  split
  · next hwrap =>
    -- the last slot was written: the cursor is at the front again
    have hdrop : slots.drop (idx + 1) = [] := List.drop_eq_nil_of_le hwrap
    rw [List.rotate_zero, hset, hdrop]
    rfl
  · have hlen : (slots.take idx ++ [a]).length = idx + 1 := by
      rw [List.length_append, List.length_take, Nat.min_eq_left (Nat.le_of_lt hidx)]
      rfl
    have hsplit : slots.set idx a = (slots.take idx ++ [a]) ++ slots.drop (idx + 1) := by
      rw [hset, List.append_assoc]
      rfl
    rw [hsplit, ← hlen, List.rotate_append_length_eq, List.append_assoc]

theorem rtake_tail_concat (hn : 0 < n) (hlen : n ≤ history.length) (a : α) :
    (history.rtake n).tail ++ [a] = (history ++ [a]).rtake n := by
  obtain ⟨m, rfl⟩ := Nat.exists_eq_add_of_lt hn
  rw [Nat.zero_add, List.rtake_concat_succ]
  simp only [List.rtake, List.tail_drop]
  congr 2
  omega

/-- A write to a full ring. -/
theorem set_keeps_last (hn : 0 < n) (hslots : slots.length = n) (hidx : idx < n)
    (hlen : n ≤ history.length) (h : slots.rotate idx = history.rtake n) (a : α) :
    (slots.set idx a).rotate (advance n idx) = (history ++ [a]).rtake n := by
  have hrot := rotate_set (hslots ▸ hidx) a
  rw [hslots, h] at hrot
  rw [hrot, rtake_tail_concat hn hlen]

/-- A write to a ring that is still growing: the cursor has not moved and the slots are the
    whole history. -/
theorem append_keeps_last (hslots : slots.length < n) (h : slots = history) (a : α) :
    slots ++ [a] = (history ++ [a]).rtake n := by
  subst h
  have hall : (slots ++ [a]).length - n = 0 := by
    rw [List.length_append, List.length_singleton]
    omega
  rw [List.rtake, hall, List.drop_zero]

theorem rtake_of_length_le (hlen : history.length ≤ n) : history.rtake n = history := by
  rw [List.rtake, Nat.sub_eq_zero_of_le hlen, List.drop_zero]

/-! ## Reading -/

/-- Reading `n` slots from the cursor on, with the wrap. -/
theorem map_range_rotate (hslots : slots.length = n) (d : α) :
    (List.range n).map (fun i => slots.getD ((idx + i) % n) d) = slots.rotate idx := by
  apply List.ext_getElem?
  intro i
  by_cases hi : i < n
  · have hmod : (i + idx) % n < n := Nat.mod_lt _ (by omega)
    rw [List.getElem?_rotate (hslots ▸ hi), hslots, List.getElem?_map, List.getElem?_range hi,
      Option.map_some, Nat.add_comm idx i, List.getD_eq_getElem?_getD,
      List.getElem?_eq_getElem (hslots ▸ hmod), Option.getD_some]
  · rw [List.getElem?_eq_none (by simpa using hi),
      List.getElem?_eq_none (by rw [List.length_rotate]; omega)]

/-- A ring that starts with `n` fillers: a filter that drops the filler sees the last `n`
    values only. -/
theorem filter_rtake_fill {p : α → Bool} {fill : α} (hfill : p fill = false) (n : Nat)
    (history : List α) :
    ((List.replicate n fill ++ history).rtake n).filter p = (history.rtake n).filter p := by
  have hrt : (List.replicate n fill ++ history).rtake n =
      (List.replicate n fill).drop history.length ++ history.rtake n := by
    simp only [List.rtake, List.length_append, List.length_replicate, List.drop_append]
    congr 2 <;> omega
  rw [hrt, List.filter_append, List.drop_replicate]
  simp [hfill]

end Ring
