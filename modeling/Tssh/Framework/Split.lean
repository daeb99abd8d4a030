import Mathlib.Tactic.Common

/-! # Splitting a Stream at a Separator

    A list is split into the parts that a separator ends and the rest behind the last one.
    A stream can be split piece by piece: the rest of the first piece goes in front of the next
    (`complete_append`, `rest_append`).
-/

namespace Split

variable {α : Type} [DecidableEq α] (sep : α)

/-- The parts that end with a separator, without it. -/
def complete (xs : List α) : List (List α) := (xs.splitOn sep).dropLast

/-- What is behind the last separator. -/
def rest (xs : List α) : List α := (xs.splitOn sep).getLastD []

variable {sep}

theorem splitOn_cons (x : α) (xs : List α) :
    (x :: xs).splitOn sep =
      if x = sep then [] :: xs.splitOn sep else (xs.splitOn sep).modifyHead (List.cons x) := by
  rw [List.splitOn, List.splitOnP_cons_eq_if_modifyHead]
  by_cases h : x = sep
  · rw [if_pos h, if_pos (by simpa using h)]
    rfl
  · rw [if_neg h, if_neg (by simpa using h)]
    rfl

theorem splitOn_ne_nil (xs : List α) : xs.splitOn sep ≠ [] := List.splitOnP_ne_nil _ _

theorem splitOn_eq (xs : List α) : xs.splitOn sep = complete sep xs ++ [rest sep xs] := by
  rw [complete, rest, List.getLastD_eq_getLast?, List.getLast?_eq_some_getLast (splitOn_ne_nil xs)]
  exact (List.dropLast_concat_getLast (splitOn_ne_nil xs)).symm

theorem complete_nil : complete sep ([] : List α) = [] := by
  rw [complete, List.splitOn_nil]
  rfl

theorem rest_nil : rest sep ([] : List α) = [] := by
  rw [rest, List.splitOn_nil]
  rfl

/-- The parts and the rest are determined by the list of all of them. -/
theorem split_unique {xs : List α} (parts : List (List α)) (last : List α)
    (h : xs.splitOn sep = parts ++ [last]) : complete sep xs = parts ∧ rest sep xs = last := by
  have heq := (splitOn_eq xs).symm.trans h
  have hparts := List.append_inj' heq rfl
  exact ⟨hparts.1, by simpa using hparts.2⟩

/-- A separator in front ends an empty part. -/
theorem split_cons_sep (xs : List α) :
    complete sep (sep :: xs) = [] :: complete sep xs ∧ rest sep (sep :: xs) = rest sep xs := by
  apply split_unique
  rw [splitOn_cons, if_pos rfl, splitOn_eq xs]
  rfl

/-- Another element in front goes into the first part, or into the rest if there is none. -/
theorem split_cons_ne {x : α} (hx : x ≠ sep) (xs : List α) :
    (∃ part parts, complete sep xs = part :: parts ∧
      complete sep (x :: xs) = (x :: part) :: parts ∧ rest sep (x :: xs) = rest sep xs) ∨
    (complete sep xs = [] ∧ complete sep (x :: xs) = [] ∧
      rest sep (x :: xs) = x :: rest sep xs) := by
  have hcons : (x :: xs).splitOn sep =
      (complete sep xs ++ [rest sep xs]).modifyHead (List.cons x) := by
    rw [splitOn_cons, if_neg hx, splitOn_eq xs]
  cases hparts : complete sep xs with
  | nil =>
    rw [hparts] at hcons
    obtain ⟨hcomplete, hrest⟩ := split_unique [] (x :: rest sep xs) hcons
    exact .inr ⟨rfl, hcomplete, hrest⟩
  | cons part parts =>
    rw [hparts] at hcons
    obtain ⟨hcomplete, hrest⟩ := split_unique ((x :: part) :: parts) (rest sep xs) hcons
    exact .inl ⟨part, parts, rfl, hcomplete, hrest⟩

theorem splitOn_append (xs ys : List α) :
    (xs ++ ys).splitOn sep = complete sep xs ++ (rest sep xs ++ ys).splitOn sep := by
  induction xs with
  | nil =>
    rw [complete_nil, rest_nil]
    rfl
  | cons x xs ih =>
    rw [List.cons_append, splitOn_cons, ih]
    by_cases hx : x = sep
    · rw [if_pos hx, hx, (split_cons_sep xs).1, (split_cons_sep xs).2, List.cons_append]
    · rw [if_neg hx]
      rcases split_cons_ne hx xs with ⟨part, parts, hxs, hcomplete, hrest⟩ | ⟨hxs, hcomplete, hrest⟩
      · rw [hxs, hcomplete, hrest]
        rfl
      · -- no part is complete yet, so `x` goes in front of the rest
        rw [hxs, hcomplete, hrest, List.nil_append, List.nil_append, List.cons_append, splitOn_cons,
          if_neg hx]

theorem split_of_append (xs ys : List α) :
    (xs ++ ys).splitOn sep =
      (complete sep xs ++ complete sep (rest sep xs ++ ys)) ++ [rest sep (rest sep xs ++ ys)] := by
  rw [splitOn_append, splitOn_eq (rest sep xs ++ ys), List.append_assoc]

/-- **Piecewise splitting.** -/
theorem complete_append (xs ys : List α) :
    complete sep (xs ++ ys) = complete sep xs ++ complete sep (rest sep xs ++ ys) :=
  (split_unique _ _ (split_of_append xs ys)).1

theorem rest_append (xs ys : List α) : rest sep (xs ++ ys) = rest sep (rest sep xs ++ ys) :=
  (split_unique _ _ (split_of_append xs ys)).2

/-- The rest is the end of the list, and all of it while no part is complete. -/
theorem rest_suffix (xs : List α) :
    rest sep xs <:+ xs ∧ (complete sep xs = [] → rest sep xs = xs) := by
  induction xs with
  | nil =>
    rw [rest_nil]
    exact ⟨List.suffix_rfl, fun _ => rfl⟩
  | cons x xs ih =>
    by_cases hx : x = sep
    · rw [hx, (split_cons_sep xs).1, (split_cons_sep xs).2]
      exact ⟨ih.1.trans (List.suffix_cons _ _), nofun⟩
    · rcases split_cons_ne hx xs with ⟨part, parts, -, hcomplete, hrest⟩ | ⟨hxs, -, hrest⟩
      · rw [hcomplete, hrest]
        exact ⟨ih.1.trans (List.suffix_cons _ _), nofun⟩
      · rw [hrest, ih.2 hxs]
        exact ⟨List.suffix_rfl, fun _ => rfl⟩

/-! ## Joined parts -/

omit [DecidableEq α] in
theorem intercalate_append {xs ys : List (List α)} (hx : xs ≠ []) (hy : ys ≠ []) :
    [sep].intercalate (xs ++ ys) = [sep].intercalate xs ++ sep :: [sep].intercalate ys := by
  induction xs with
  | nil => exact absurd rfl hx
  | cons x xs ih =>
    cases xs with
    | nil => simp [List.intercalate_cons_of_ne_nil hy]
    | cons x' xs =>
      have hne : x' :: xs ++ ys ≠ [] := List.cons_ne_nil _ _
      rw [List.cons_append, List.intercalate_cons_of_ne_nil hne, ih (List.cons_ne_nil _ _),
        List.intercalate_cons_cons]
      simp only [List.append_assoc]

omit [DecidableEq α] in
theorem mem_intercalate {x : α} {parts : List (List α)} (h : x ∈ [sep].intercalate parts) :
    x = sep ∨ ∃ part ∈ parts, x ∈ part := by
  induction parts with
  | nil => simp at h
  | cons part parts ih =>
    cases parts with
    | nil => exact .inr ⟨part, List.mem_cons_self, by simpa using h⟩
    | cons part' parts =>
      rw [List.intercalate_cons_cons, List.mem_append, List.mem_append, List.mem_singleton] at h
      obtain (hpart | hsep) | hrest := h
      · exact .inr ⟨part, List.mem_cons_self, hpart⟩
      · exact .inl hsep
      · -- one of the other parts
        obtain hsep | ⟨other, hmem, hx⟩ := ih hrest
        · exact .inl hsep
        · exact .inr ⟨other, List.mem_cons_of_mem _ hmem, hx⟩

theorem splitOn_of_notMem {xs : List α} (h : sep ∉ xs) : xs.splitOn sep = [xs] := by
  have hxs : [sep].intercalate [xs] = xs := List.intercalate_singleton
  rw [← hxs, List.splitOn_intercalate sep (by simpa using h) (List.cons_ne_nil _ _), hxs]

/-- The first part goes up to the first separator. -/
theorem splitOn_eq_takeWhile (xs : List α) :
    ∃ parts, xs.splitOn sep = xs.takeWhile (· ≠ sep) :: parts := by
  induction xs with
  | nil => exact ⟨[], List.splitOn_nil sep⟩
  | cons x xs ih =>
    obtain ⟨parts, hparts⟩ := ih
    rw [splitOn_cons, hparts]
    by_cases hx : x = sep
    · rw [if_pos hx, List.takeWhile_cons_of_neg (by simpa using hx)]
      exact ⟨_, rfl⟩
    · rw [if_neg hx, List.takeWhile_cons_of_pos (by simpa using hx)]
      exact ⟨parts, rfl⟩

end Split
