import Mathlib.Data.List.Basic
import Mathlib.Logic.Function.Basic

/-! # Deposits

    A map into which items are put under keys that were not used before, and from which
    several parties take them: whoever asks for a key first gets its item and deletes the
    entry.  Two history variables record what was put under a key and who got it.

    * `Deposit.Ok`: what was put is still there, or exactly one party has got it.
    * `Deposit.Held`: a party has got the item of a key; nothing changes that.
-/

/-- The map `items`, with what was ever put under a key (`given`) and who got it (`takers`). -/
structure Deposit (ι α γ : Type) where
  items : ι → Option α
  given : ι → Option α
  takers : ι → List γ

namespace Deposit

variable {ι α γ : Type} [DecidableEq ι] {d : Deposit ι α γ} {i j : ι} {a : α} {g : γ}

def empty : Deposit ι α γ := ⟨fun _ => none, fun _ => none, fun _ => []⟩

/-- Put an item under a key. -/
def put (d : Deposit ι α γ) (i : ι) (a : α) : Deposit ι α γ :=
  { d with items := Function.update d.items i (some a)
           given := Function.update d.given i (some a) }

/-- Party `g` asks for a key: it gets the item and the entry is deleted. -/
def take (d : Deposit ι α γ) (i : ι) (g : γ) : Option α × Deposit ι α γ :=
  match d.items i with
  | none => (none, d)
  | some a =>
    (some a, { d with items := Function.update d.items i none
                      takers := Function.update d.takers i (d.takers i ++ [g]) })

/-- What was put under a key is still there, or one party has got it. -/
def Ok (d : Deposit ι α γ) : Prop :=
  ∀ i, (d.given i = none ∧ d.items i = none ∧ d.takers i = []) ∨
    ∃ a, d.given i = some a ∧
      ((d.items i = some a ∧ d.takers i = []) ∨ (d.items i = none ∧ ∃ g, d.takers i = [g]))

/-- Party `g` has got item `a`, which was put under key `i`. -/
def Held (d : Deposit ι α γ) (i : ι) (a : α) (g : γ) : Prop :=
  d.given i = some a ∧ d.takers i = [g]

omit [DecidableEq ι] in
theorem ok_empty : (empty : Deposit ι α γ).Ok := fun _ => .inl ⟨rfl, rfl, rfl⟩

/-! ## Putting -/

@[simp] theorem given_put_self : (d.put i a).given i = some a := Function.update_self ..

theorem given_put_ne (h : j ≠ i) : (d.put i a).given j = d.given j := Function.update_of_ne h ..

/-- Only the new entry is given. -/
theorem given_put_cases {b : α} (h : (d.put i a).given j = some b) :
    (j = i ∧ b = a) ∨ (j ≠ i ∧ d.given j = some b) := by
  by_cases hj : j = i
  · subst hj
    rw [given_put_self] at h
    exact .inl ⟨rfl, (Option.some.inj h).symm⟩
  · rw [given_put_ne hj] at h
    exact .inr ⟨hj, h⟩

theorem Ok.put (h : d.Ok) (hi : d.given i = none) : (d.put i a).Ok := by
  intro j
  by_cases hj : j = i
  · subst hj
    right
    refine ⟨a, given_put_self, .inl ⟨Function.update_self .., ?_⟩⟩
    rcases h j with ⟨_, _, htakers⟩ | ⟨b, hb, _⟩
    · exact htakers
    · rw [hi] at hb
      cases hb
  · have hitems : (d.put i a).items j = d.items j := Function.update_of_ne hj ..
    rw [given_put_ne hj, hitems]
    exact h j

theorem Held.put {b : α} (h : d.Held j b g) (hi : d.given i = none) : (d.put i a).Held j b g := by
  have hj : j ≠ i := by
    rintro rfl
    rw [h.1] at hi
    cases hi
  exact ⟨by rw [given_put_ne hj]; exact h.1, h.2⟩

/-! ## Taking -/

@[simp] theorem given_take : (d.take i g).2.given = d.given := by
  unfold take
  cases d.items i <;> rfl

/-- What a party gets is the entry. -/
@[simp] theorem fst_take : (d.take i g).1 = d.items i := by
  unfold take
  cases d.items i <;> rfl

theorem items_take_ne (h : j ≠ i) : (d.take i g).2.items j = d.items j := by
  unfold take
  cases d.items i with
  | none => rfl
  | some a => exact Function.update_of_ne h ..

/-- Taking adds no entry. -/
theorem items_of_items_take (h : (d.take i g).2.items j = some a) : d.items j = some a := by
  by_cases hj : j = i
  · subst hj
    unfold take at h
    cases hi : d.items j with
    | none =>
      rw [hi] at h
      rw [← hi]
      exact h
    | some b =>
      rw [hi] at h
      simp at h
  · rwa [items_take_ne hj] at h

theorem take_of_none (h : (d.take i g).1 = none) : (d.take i g).2 = d := by
  unfold take at h ⊢
  cases hi : d.items i with
  | none => rfl
  | some a =>
    rw [hi] at h
    cases h

omit [DecidableEq ι] in
/-- An entry shows what was put, and nobody has got it yet. -/
theorem Ok.of_item (h : d.Ok) (hi : d.items i = some a) : d.given i = some a ∧ d.takers i = [] := by
  rcases h i with ⟨_, hnone, _⟩ | ⟨b, hgiven, ⟨hitem, htakers⟩ | ⟨hnone, _⟩⟩
  · rw [hi] at hnone
    cases hnone
  · rw [hi] at hitem
    exact ⟨by rw [hgiven, hitem], htakers⟩
  · rw [hi] at hnone
    cases hnone

theorem Ok.take (h : d.Ok) (i : ι) (g : γ) : (d.take i g).2.Ok := by
  unfold Deposit.take
  cases hi : d.items i with
  | none => exact h
  | some a =>
    obtain ⟨hgiven, htakers⟩ := h.of_item hi
    intro j
    by_cases hj : j = i
    · subst hj
      refine .inr ⟨a, hgiven, .inr ⟨Function.update_self .., g, ?_⟩⟩
      simp only [Function.update_self, htakers, List.nil_append]
    · have hitems : Function.update d.items i none j = d.items j := Function.update_of_ne hj ..
      have hothers : Function.update d.takers i (d.takers i ++ [g]) j = d.takers j :=
        Function.update_of_ne hj ..
      show _ ∨ _
      simp only [hitems, hothers]
      exact h j

/-- Who gets an item holds it, and nobody got it before. -/
theorem Ok.held_of_take (h : d.Ok) (ha : (d.take i g).1 = some a) :
    (d.take i g).2.Held i a g ∧ d.takers i = [] := by
  unfold Deposit.take at ha ⊢
  cases hi : d.items i with
  | none =>
    rw [hi] at ha
    cases ha
  | some b =>
    rw [hi] at ha
    obtain rfl := Option.some.inj ha
    obtain ⟨hgiven, htakers⟩ := h.of_item hi
    exact ⟨⟨hgiven, by simp only [Function.update_self, htakers, List.nil_append]⟩, htakers⟩

theorem Ok.held_take (h : d.Ok) {b : α} {g' : γ} (hheld : d.Held j b g') (i : ι) (g : γ) :
    (d.take i g).2.Held j b g' := by
  unfold Deposit.take
  cases hi : d.items i with
  | none => exact hheld
  | some a =>
    have hj : j ≠ i := by
      rintro rfl
      have htakers := (h.of_item hi).2
      rw [hheld.2] at htakers
      cases htakers
    exact ⟨hheld.1, by simp only [Function.update_of_ne hj]; exact hheld.2⟩

/-- Only the party that asks becomes a taker. -/
theorem mem_takers_take {g' : γ} (h : g' ∈ (d.take i g).2.takers j) : g' ∈ d.takers j ∨ g' = g := by
  unfold take at h
  cases hi : d.items i with
  | none =>
    rw [hi] at h
    exact .inl h
  | some a =>
    rw [hi] at h
    by_cases hj : j = i
    · subst hj
      have hmem : g' ∈ d.takers j ++ [g] := by simpa using h
      simpa using hmem
    · left
      simpa [Function.update_of_ne hj] using h

omit [DecidableEq ι] in
/-- At most one party holds an item. -/
theorem Held.unique {g' : γ} {b : α} (h : d.Held i a g) (h' : d.Held i b g') : a = b ∧ g = g' := by
  refine ⟨Option.some.inj (h.1.symm.trans h'.1), ?_⟩
  exact (List.cons.inj (h.2.symm.trans h'.2)).1

end Deposit
