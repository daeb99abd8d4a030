import Mathlib.Logic.Function.Basic

/-! # Places for One

    A function says where each thing is, and a variable names the one thing that is at a certain
    place: `OnlyAt`.  One lemma for each way in which a thing can move.

    A mutex is such a variable: it names the thread that is inside the sections it guards, where
    the threads are inside or not (`Excludes`).
-/

namespace Go

variable {ι π : Type} {f : ι → π} {p q : π} {v : Option ι} {i : ι}

/-- `v` is the thing at place `p`, if there is one. -/
def OnlyAt (f : ι → π) (p : π) (v : Option ι) : Prop := ∀ i, v = some i ↔ f i = p

namespace OnlyAt

theorem eq_of_at (h : OnlyAt f p v) (hi : f i = p) {j : ι} (hj : f j = p) : j = i :=
  Option.some.inj (((h j).mpr hj).symm.trans ((h i).mpr hi))

theorem ne_of_none (h : OnlyAt f p none) (j : ι) : f j ≠ p := by
  intro hj
  cases (h j).mpr hj

variable [DecidableEq ι]

/-- Something comes to the empty place. -/
theorem arrive (h : OnlyAt f p none) : OnlyAt (Function.update f i p) p (some i) := by
  intro j
  by_cases hj : j = i
  · simp [hj]
  · rw [Function.update_of_ne hj]
    simp [Ne.symm hj, h.ne_of_none j]

/-- What is at the place goes to another one. -/
theorem leave (h : OnlyAt f p v) (hi : f i = p) (hq : q ≠ p) :
    OnlyAt (Function.update f i q) p none := by
  intro j
  by_cases hj : j = i
  · simp [hj, hq]
  · rw [Function.update_of_ne hj]
    simp only [reduceCtorEq, false_iff]
    exact fun hp => hj (h.eq_of_at hi hp)

/-- Something moves that neither comes from the place nor goes there. -/
theorem pass (h : OnlyAt f p v) (hi : f i ≠ p) (hq : q ≠ p) :
    OnlyAt (Function.update f i q) p v := by
  intro j
  rw [h j]
  by_cases hj : j = i
  · simp [hj, hi, hq]
  · rw [Function.update_of_ne hj]

/-- Nothing moves. -/
theorem stay (h : OnlyAt f p v) (hq : q = f i) : OnlyAt (Function.update f i q) p v := by
  rw [hq, Function.update_eq_self]
  exact h

end OnlyAt

/-! ## Mutexes -/

variable {mutex : Option ι} {inside : ι → Bool}

/-- Exactly the thread that has locked the mutex is inside. -/
def Excludes (mutex : Option ι) (inside : ι → Bool) : Prop := OnlyAt inside true mutex

namespace Excludes

/-- Nobody else is inside. -/
theorem outside (h : Excludes mutex inside) (hi : inside i = true) {j : ι} (hj : j ≠ i) :
    inside j = false :=
  Bool.eq_false_iff.mpr fun hinside => hj (OnlyAt.eq_of_at h hi hinside)

variable [DecidableEq ι]

theorem lock (h : Excludes none inside) : Excludes (some i) (Function.update inside i true) :=
  OnlyAt.arrive h

theorem unlock (h : Excludes mutex inside) (hi : inside i = true) :
    Excludes none (Function.update inside i false) :=
  OnlyAt.leave h hi Bool.false_ne_true

/-- A thread that stays inside, or outside. -/
theorem stay (h : Excludes mutex inside) {b : Bool} (hb : b = inside i) :
    Excludes mutex (Function.update inside i b) :=
  OnlyAt.stay h hb

end Excludes

end Go
