import Mathlib.Tactic.Common

/-! # Expressions with Groups

    Regular expressions between `^` and `$` that are a sequence of characters and of groups
    `(k+)` and `(k+)?`, where `k` is a class of characters.  `find` gives the submatches that a
    backtracking matcher finds: a group takes the longest text first.

    A group is **delimited** if the expression ends behind it, or goes on with a character that
    is not in its class.  Then the matcher never has to go back (`find_group_lit`,
    `find_optional_lit`), and a text that is given in pieces can be matched piece by piece.
-/

namespace Submatch

variable {α : Type}

/-! ## Groups -/

/-- A group that has taken some text already: it takes more first, and gives it back if `next`
    does not match behind it. -/
def greedy (k : α → Bool) (next : List α → Option (List (List α))) :
    List α → List α → Option (List (List α))
  | _, [] => none
  | taken, a :: s =>
    if k a then
      (greedy k next (taken ++ [a]) s).or ((next s).map ((taken ++ [a]) :: ·))
    else none

/-- The text does not begin with an element of the class. -/
def Stops (k : α → Bool) (s : List α) : Prop := ∀ a ∈ s.head?, k a = false

variable {k : α → Bool} {a : α} {s t g : List α} {next : List α → Option (List (List α))}
  {taken : List α} {caps : List (List α)}

@[simp] theorem stops_nil : Stops k [] := nofun

@[simp] theorem stops_cons : Stops k (a :: s) ↔ k a = false := by
  simp [Stops]

theorem greedy_stops (h : Stops k s) : greedy k next taken s = none := by
  cases s with
  | nil => rfl
  | cons a s =>
    have ha : k a = false := stops_cons.mp h
    rw [greedy, ha]
    rfl

/-- By induction on the text of the group: what `next` is tried on before the group ends does begin
    with an element of the class, so it does not match. -/
theorem greedy_append
    (hnext : ∀ s, ¬ Stops k s → next s = none) (hne : g ≠ []) (hg : ∀ a ∈ g, k a = true)
    (ht : Stops k t) (taken : List α) :
    greedy k next taken (g ++ t) = (next t).map ((taken ++ g) :: ·) := by
  induction g generalizing taken with
  | nil => exact absurd rfl hne
  | cons a g ih =>
    have ha : k a = true := hg a List.mem_cons_self
    rw [List.cons_append, greedy, if_pos ha]
    cases g with
    | nil => rw [List.nil_append, greedy_stops ht, Option.none_or]
    | cons b g =>
      -- nothing is given back
      have hb : k b = true := hg b (List.mem_cons_of_mem _ List.mem_cons_self)
      have hback : next (b :: g ++ t) = none := hnext _ (by simp [hb])
      rw [ih (List.cons_ne_nil b g) (fun c hc => hg c (List.mem_cons_of_mem _ hc)), hback,
        List.append_assoc]
      simp

theorem exists_of_greedy (h : greedy k next taken s = some caps) :
    ∃ g t caps', g ≠ [] ∧ (∀ a ∈ g, k a = true) ∧ s = g ++ t ∧ next t = some caps' := by
  induction s generalizing taken caps with
  | nil => cases h
  | cons a s ih =>
    rw [greedy] at h
    by_cases ha : k a = true
    · rw [if_pos ha] at h
      cases hmore : greedy k next (taken ++ [a]) s with
      | some caps' =>
        obtain ⟨g, t, caps'', -, hg, rfl, hnext⟩ := ih hmore
        exact ⟨a :: g, t, caps'', List.cons_ne_nil a g, by simpa [ha] using hg, rfl, hnext⟩
      | none =>
        rw [hmore, Option.none_or, Option.map_eq_some_iff] at h
        obtain ⟨caps', hnext, -⟩ := h
        exact ⟨[a], s, caps', List.cons_ne_nil a [], by simpa using ha, rfl, hnext⟩
    · rw [if_neg ha] at h
      cases h

/-! ## Expressions -/

inductive Item (α : Type) where
  | lit (a : α)
  /-- `(k+)`. -/
  | group (k : α → Bool)
  /-- `(k+)?`; a group that takes nothing gives the empty text. -/
  | optional (k : α → Bool)

variable [DecidableEq α]

/-- The submatches of the groups, if the whole text matches. -/
def find : List (Item α) → List α → Option (List (List α))
  | [] => fun s => if s.isEmpty then some [] else none
  | .lit a :: items => fun s =>
    match s with
    | [] => none
    | b :: s => if b = a then find items s else none
  | .group k :: items => greedy k (find items) []
  | .optional k :: items => fun s =>
    (greedy k (find items) [] s).or ((find items s).map ([] :: ·))

/-- What is behind a group does not begin with an element of its class. -/
def Delimits (k : α → Bool) : List (Item α) → Prop
  | [] => True
  | .lit a :: _ => k a = false
  | _ => False

variable {b : α} {items : List (Item α)}

/-! ## Matching piece by piece -/

@[simp] theorem find_lit_self : find (.lit a :: items) (a :: s) = find items s := if_pos rfl

@[simp] theorem find_lit_ne (h : b ≠ a) : find (.lit a :: items) (b :: s) = none := if_neg h

theorem find_lit_append (hne : g ≠ []) (ha : a ∉ g) : find (.lit a :: items) (g ++ t) = none := by
  obtain ⟨b, g, rfl⟩ := List.exists_cons_of_ne_nil hne
  exact find_lit_ne (List.ne_of_not_mem_cons ha).symm

theorem find_of_delimits (hitems : Delimits k items) (hs : ¬ Stops k s) : find items s = none := by
  cases s with
  | nil => exact absurd stops_nil hs
  | cons b s =>
    have hb : k b = true := by simpa using hs
    match items, hitems with
    | [], _ => rfl
    | .lit a :: items, ha =>
      have ha : k a = false := ha
      have hne : b ≠ a := by
        rintro rfl
        simp [ha] at hb
      exact find_lit_ne hne

theorem find_group (hitems : Delimits k items) (hne : g ≠ []) (hg : ∀ a ∈ g, k a = true)
    (ht : Stops k t) : find (.group k :: items) (g ++ t) = (find items t).map (g :: ·) :=
  greedy_append (fun _ hs => find_of_delimits hitems hs) hne hg ht []

/-- A group up to a character that is not in its class. -/
theorem find_group_lit (ha : k a = false) (hne : g ≠ []) (hg : ∀ a ∈ g, k a = true) :
    find (.group k :: .lit a :: items) (g ++ a :: t) = (find items t).map (g :: ·) := by
  have hitems : Delimits k (.lit a :: items) := ha
  rw [find_group hitems hne hg (stops_cons.mpr ha), find_lit_self]

theorem find_last_group (hne : g ≠ []) (hg : ∀ a ∈ g, k a = true) :
    find [.group k] g = some [g] := by
  have h : find [.group k] (g ++ []) = (find [] []).map (g :: ·) :=
    find_group trivial hne hg stops_nil
  rwa [List.append_nil] at h

theorem find_group_stops (h : Stops k s) : find (.group k :: items) s = none :=
  greedy_stops h

theorem find_optional_lit (ha : k a = false) (hg : ∀ a ∈ g, k a = true) :
    find (.optional k :: .lit a :: items) (g ++ a :: t) = (find items t).map (g :: ·) := by
  have hitems : Delimits k (.lit a :: items) := ha
  have ht : Stops k (a :: t) := stops_cons.mpr ha
  show (greedy k (find (.lit a :: items)) [] (g ++ a :: t)).or
    ((find (.lit a :: items) (g ++ a :: t)).map ([] :: ·)) = _
  by_cases hne : g = []
  · rw [hne, List.nil_append, greedy_stops ht, Option.none_or, find_lit_self]
  · have hback : find (.lit a :: items) (g ++ a :: t) = none := by
      refine find_lit_append hne ?_
      intro hmem
      simp [hg a hmem] at ha
    rw [greedy_append (fun _ hs => find_of_delimits hitems hs) hne hg ht, hback, find_lit_self]
    simp

/-! ## Texts that match -/

theorem exists_of_find_lit (h : find (.lit a :: items) s = some caps) :
    ∃ t, s = a :: t ∧ find items t = some caps := by
  cases s with
  | nil => cases h
  | cons b s =>
    by_cases hb : b = a
    · subst hb
      exact ⟨s, rfl, by simpa using h⟩
    · simp [hb] at h

theorem exists_of_find_group (h : find (.group k :: items) s = some caps) :
    ∃ g t caps', g ≠ [] ∧ (∀ a ∈ g, k a = true) ∧ s = g ++ t ∧ find items t = some caps' :=
  exists_of_greedy h

theorem exists_of_find_optional (h : find (.optional k :: items) s = some caps) :
    ∃ g t caps', (∀ a ∈ g, k a = true) ∧ s = g ++ t ∧ find items t = some caps' := by
  have h : (greedy k (find items) [] s).or ((find items s).map ([] :: ·)) = some caps := h
  cases htaken : greedy k (find items) [] s with
  | some caps' =>
    obtain ⟨g, t, caps'', -, hg, hs, hnext⟩ := exists_of_greedy htaken
    exact ⟨g, t, caps'', hg, hs, hnext⟩
  | none =>
    rw [htaken, Option.none_or, Option.map_eq_some_iff] at h
    obtain ⟨caps', hnext, -⟩ := h
    exact ⟨[], s, caps', nofun, rfl, hnext⟩

end Submatch
