import Mathlib.Logic.Function.Basic
import Mathlib.Tactic.Common

/-! # Inverse Indexes

    An index of a partial function `f` maps every value back to the key that has it:
    `IsIndex m f`.  There is one only if no two keys have the same value.
    `moveEntry` keeps an index up to date when one key changes its value, the way a
    program does it: add the new entry, then delete the old one.
-/

namespace Index

variable {κ ν : Type} [DecidableEq κ] [DecidableEq ν]

/-- `m` maps exactly the values of `f` back to their keys. -/
def IsIndex (m : ν → Option κ) (f : κ → Option ν) : Prop :=
  ∀ v k, m v = some k ↔ f k = some v

/-- Add the entry for the new value of `k`, then delete the one for the old value. -/
def moveEntry (m : ν → Option κ) (k : κ) (old new : Option ν) : ν → Option κ :=
  let m := match new with
    | some v => Function.update m v (some k)
    | none => m
  match old with
  | some v => Function.update m v none
  | none => m

omit [DecidableEq κ] [DecidableEq ν] in
/-- Indexed values are unique. -/
theorem IsIndex.unique {m : ν → Option κ} {f : κ → Option ν} (h : IsIndex m f) {k k' : κ} {v : ν}
    (hk : f k = some v) (hk' : f k' = some v) : k = k' := by
  have hm := (h v k).mpr hk
  rw [(h v k').mpr hk', Option.some.injEq] at hm
  exact hm.symm

omit [DecidableEq κ] [DecidableEq ν] in
theorem IsIndex.eq_none_iff {m : ν → Option κ} {f : κ → Option ν} (h : IsIndex m f) {v : ν} :
    m v = none ↔ ∀ k, f k ≠ some v := by
  constructor
  · intro hv k hk
    rw [(h v k).mpr hk] at hv
    cases hv
  · intro hv
    cases hm : m v with
    | none => rfl
    | some k => exact absurd ((h v k).mp hm) (hv k)

omit [DecidableEq κ] in
theorem moveEntry_apply {m : ν → Option κ} {k : κ} {old new : Option ν} (v : ν) :
    moveEntry m k old new v =
      if old = some v then none else if new = some v then some k else m v := by
  have hupdate : ∀ (m : ν → Option κ) (w : ν) (e : Option κ),
      Function.update m w e v = if w = v then e else m v := by
    intro m w e
    rw [Function.update_apply]
    exact if_congr eq_comm rfl rfl
  cases old <;> cases new <;> simp [moveEntry, hupdate]

/-- **Moving an entry keeps the index**, if no key has the new value yet. -/
theorem IsIndex.move {m : ν → Option κ} {f : κ → Option ν} (h : IsIndex m f) (k : κ)
    {new : Option ν} (hnew : ∀ v, new = some v → ∀ k', f k' ≠ some v) :
    IsIndex (moveEntry m k (f k) new) (Function.update f k new) := by
  intro v k'
  rw [moveEntry_apply, Function.update_apply]
  by_cases hv : new = some v
  · -- the new value: it was not there before, so nothing deletes it
    rw [if_neg (hnew v hv k), if_pos hv]
    by_cases hk : k' = k
    · simp [hk, hv]
    · rw [if_neg hk]
      exact ⟨fun heq => absurd (Option.some.inj heq).symm hk, fun heq => absurd heq (hnew v hv k')⟩
  · rw [if_neg hv]
    by_cases hk : k' = k
    · rw [if_pos hk]
      constructor
      · intro heq
        split at heq
        · cases heq
        · next hold => exact absurd (hk ▸ (h v k').mp heq) hold
      · exact fun heq => absurd heq hv
    · rw [if_neg hk]
      constructor
      · intro heq
        split at heq
        · cases heq
        · exact (h v k').mp heq
      · intro heq
        have hold : f k ≠ some v := fun hold => hk (h.unique heq hold)
        rw [if_neg hold]
        exact (h v k').mpr heq

end Index
