import Tssh.Framework.System

/-! # Goroutines as Sequences of Atomic Actions

    A goroutine is a tree of atomic actions on a shared state: each action
    changes the state and the continuation is chosen from the state the
    action saw.  One program text has two meanings here:

    * `Prog.run`: the whole program as one atomic step,
    * `pool`: any number of programs, started at any time, whose actions
      interleave in any order.

    The proof rule for pools is **rely-guarantee** with one relation that
    every action of every goroutine respects (`Rely`, `Prog.Safe`); what a
    goroutine learnt from an action stays true along the relation.
-/

namespace LTS

/-- A program over the shared state `σ` with result `α`. -/
inductive Prog (σ α : Type) where
  | ret (a : α)
  | act (next : σ → σ) (cont : σ → Prog σ α)

namespace Prog

variable {σ α β : Type}

protected def bind : Prog σ α → (α → Prog σ β) → Prog σ β
  | ret a, f => f a
  | act next cont, f => act next (fun s => (cont s).bind f)

instance : Monad (Prog σ) where
  pure := ret
  bind := Prog.bind

@[simp] theorem pure_eq (a : α) : (pure a : Prog σ α) = ret a := rfl

@[simp] theorem ret_bind (a : α) (f : α → Prog σ β) : (ret a >>= f) = f a := rfl

/-! ## Atomic actions -/

/-- One atomic access: read the state, change it and return a value. -/
def atomic (f : σ → α × σ) : Prog σ α :=
  act (fun s => (f s).2) (fun s => ret (f s).1)

/-- Atomic load. -/
def load (f : σ → α) : Prog σ α := atomic (fun s => (f s, s))

/-- Atomic store. -/
def store (f : σ → σ) : Prog σ Unit := atomic (fun s => ((), f s))

/-! ## The program as one atomic step -/

/-- Run the whole program without interference. -/
def run : Prog σ α → σ → α × σ
  | ret a, s => (a, s)
  | act next cont, s => (cont s).run (next s)

-- `(rfl)`, so that `simp` rewrites with these instead of unfolding: the conditions of
-- programs depend on what was loaded
@[simp] theorem run_ret (a : α) (s : σ) : (ret a : Prog σ α).run s = (a, s) := (rfl)

@[simp] theorem run_atomic (f : σ → α × σ) (s : σ) : (atomic f).run s = f s := (rfl)

@[simp] theorem run_load (f : σ → α) (s : σ) : (load f).run s = (f s, s) := (rfl)

@[simp] theorem run_store (f : σ → σ) (s : σ) : (store f).run s = ((), f s) := (rfl)

@[simp] theorem run_bind (m : Prog σ α) (f : α → Prog σ β) (s : σ) :
    (m >>= f).run s = (f (m.run s).1).run (m.run s).2 := by
  induction m generalizing s with
  | ret a => rfl
  | act next cont ih => exact ih s (next s)

@[simp] theorem run_ite (c : Prop) [Decidable c] (p q : Prog σ α) (s : σ) :
    (if c then p else q).run s = if c then p.run s else q.run s := by
  split <;> rfl

/-! ## Rely-guarantee -/

/-- Every action of the program, started where `P` holds and interleaved with
    others that respect `R`, itself respects `R`; at the end `Q` holds. -/
def Keeps (R : σ → σ → Prop) : (σ → Prop) → Prog σ α → (α → σ → Prop) → Prop
  | P, ret a, Q => ∀ s, P s → Q a s
  | P, act next cont, Q =>
      ∀ s, P s → R s (next s) ∧ Keeps R (fun t => R (next s) t) (cont s) Q

variable {R : σ → σ → Prop} {P P' : σ → Prop}

/-- A stronger precondition keeps the judgement. -/
theorem Keeps.strengthen {m : Prog σ α} {Q : α → σ → Prop}
    (h : Keeps R P m Q) (hP : ∀ s, P' s → P s) : Keeps R P' m Q := by
  cases m with
  | ret a => exact fun s hs => h s (hP s hs)
  | act next cont => exact fun s hs => h s (hP s hs)

/-- **Sequencing**. -/
theorem Keeps.bind {m : Prog σ α} {f : α → Prog σ β} {Q : α → σ → Prop}
    {Q' : β → σ → Prop} (hm : Keeps R P m Q) (hf : ∀ a, Keeps R (Q a) (f a) Q') :
    Keeps R P (m >>= f) Q' := by
  induction m generalizing P with
  | ret a => exact (hf a).strengthen hm
  | act next cont ih =>
    intro s hs
    exact ⟨(hm s hs).1, ih s (hm s hs).2⟩

end Prog

/-- A relation that all actions respect, with an invariant it keeps. -/
structure Rely (σ : Type) where
  rel : σ → σ → Prop
  inv : σ → Prop
  refl : ∀ s, rel s s
  trans : ∀ s t u, rel s t → rel t u → rel s u
  keeps : ∀ s t, inv s → rel s t → inv t

namespace Prog

variable {σ α β : Type} {G : Rely σ} {pre pre' : σ → Prop}

/-- **The judgement of the logic**: from every state with the invariant in which `pre` holds,
    every action of `m` respects the relation, whatever other goroutines do in between; at
    the end `Q` holds. -/
def Safe (G : Rely σ) (pre : σ → Prop) (m : Prog σ α) (Q : α → σ → Prop) : Prop :=
  m.Keeps G.rel (fun s => G.inv s ∧ pre s) (fun a s => G.inv s ∧ Q a s)

/-- A fact that stays true, whatever other goroutines do. -/
def Stable (G : Rely σ) (F : σ → Prop) : Prop := ∀ s t, G.rel s t → F s → F t

theorem Stable.true : Stable G (fun _ => True) := fun _ _ _ _ => trivial

variable {Q : α → σ → Prop}

theorem Safe.pure {a : α} (h : ∀ s, pre s → Q a s) : Safe G pre (pure a) Q :=
  fun s hs => ⟨hs.1, h s hs.2⟩

theorem Safe.bind {m : Prog σ α} {f : α → Prog σ β} {mid : α → σ → Prop}
    {Q : β → σ → Prop} (hm : Safe G pre m mid) (hf : ∀ a, Safe G (mid a) (f a) Q) :
    Safe G pre (m >>= f) Q :=
  Keeps.bind hm hf

theorem Safe.strengthen {m : Prog σ α} (hm : Safe G pre m Q) (h : ∀ s, pre' s → pre s) :
    Safe G pre' m Q :=
  Keeps.strengthen hm (fun s hs => ⟨hs.1, h s hs.2⟩)

theorem Safe.ite {b : Prop} [Decidable b] {m m' : Prog σ α} (h : b → Safe G pre m Q)
    (h' : ¬ b → Safe G pre m' Q) : Safe G pre (if b then m else m') Q := by
  split
  · next hb => exact h hb
  · next hb => exact h' hb

/-- **Atomic action**: it respects the relation, and its postcondition is stable. -/
theorem Safe.atomic {f : σ → α × σ} (hrel : ∀ s, G.inv s → pre s → G.rel s (f s).2)
    (hpost : ∀ s, G.inv s → pre s → Q (f s).1 (f s).2) (hstable : ∀ a, Stable G (Q a)) :
    Safe G pre (atomic f) Q := by
  intro s hs
  have hstep := hrel s hs.1 hs.2
  refine ⟨hstep, fun t ht => ?_⟩
  exact ⟨G.keeps _ t (G.keeps s _ hs.1 hstep) ht, hstable _ _ t ht (hpost s hs.1 hs.2)⟩

/-- **Load**: nothing changes, so only the postcondition is left. -/
theorem Safe.load {f : σ → α} (hpost : ∀ s, G.inv s → pre s → Q (f s) s)
    (hstable : ∀ a, Stable G (Q a)) : Safe G pre (load f) Q :=
  Safe.atomic (fun s _ _ => G.refl s) hpost hstable

/-- A load from which nothing is learnt. -/
theorem Safe.load_any {f : σ → α} (hpre : Stable G pre) :
    Safe G pre (Prog.load f) (fun _ => pre) :=
  Safe.load (fun _ _ hs => hs) (fun _ => hpre)

/-- A store that respects the relation keeps every stable fact. -/
theorem Safe.store {f : σ → σ} (hpre : Stable G pre) (hrel : ∀ s, G.rel s (f s)) :
    Safe G pre (store f) (fun _ => pre) :=
  Safe.atomic (fun s _ _ => hrel s) (fun s _ hs => hpre _ _ (hrel s) hs) (fun _ => hpre)

end Prog

/-! ## Pools of goroutines -/

/-- The shared state and the goroutines that have been started. -/
structure Pool (σ : Type) where
  shared : σ
  threads : List (Prog σ Unit)

/-- A scheduler decision: start a goroutine, or let one take its next action. -/
inductive Sched (γ : Type) where
  | spawn (g : γ)
  | run (i : Nat)

variable {σ γ : Type}

/-- One scheduler decision. -/
def poolStep (prog : γ → Prog σ Unit) (p : Pool σ) : Sched γ → Option (Pool σ)
  | .spawn g => some { p with threads := p.threads ++ [prog g] }
  | .run i =>
    match p.threads[i]? with
    | some (.act next cont) =>
      some { shared := next p.shared, threads := p.threads.set i (cont p.shared) }
    | _ => none

/-- All interleavings of the goroutines `prog g`, started at any time. -/
def pool (prog : γ → Prog σ Unit) (start : σ) : System (Pool σ) (Sched γ) :=
  System.ofStep { shared := start, threads := [] } (poolStep prog)

/-- What one scheduler decision can do. -/
theorem poolStep_cases {prog : γ → Prog σ Unit} {p p' : Pool σ} {l : Sched γ}
    (h : poolStep prog p l = some p') :
    (∃ g, l = .spawn g ∧ p' = { p with threads := p.threads ++ [prog g] }) ∨
    (∃ i next cont, l = .run i ∧ p.threads[i]? = some (.act next cont) ∧
      p' = { shared := next p.shared, threads := p.threads.set i (cont p.shared) }) := by
  cases l with
  | spawn g => exact .inl ⟨g, rfl, by simpa [poolStep] using h.symm⟩
  | run i =>
    cases hi : p.threads[i]? with
    | none => simp [poolStep, hi] at h
    | some m =>
      cases m with
      | ret a => simp [poolStep, hi] at h
      | act next cont =>
        exact .inr ⟨i, next, cont, rfl, hi, by simpa [poolStep, hi] using h.symm⟩

section RelyGuarantee

variable {prog : γ → Prog σ Unit} {start : σ} (G : Rely σ) (hstart : G.inv start)
  (hprog : ∀ g, Prog.Safe G (fun _ => True) (prog g) (fun _ _ => True))

include hstart hprog

/-- In every reachable pool the invariant holds, and every goroutine respects the relation
    from the current shared state on. -/
theorem pool_safe {p : Pool σ} (hp : (pool prog start).Reachable p) :
    G.inv p.shared ∧ ∀ m ∈ p.threads,
      Prog.Keeps G.rel (fun t => G.rel p.shared t) m (fun _ s => G.inv s ∧ True) := by
  refine System.invariant (pool prog start)
    (I := fun p => G.inv p.shared ∧ ∀ m ∈ p.threads,
      Prog.Keeps G.rel (fun t => G.rel p.shared t) m (fun _ s => G.inv s ∧ True)) ?_ ?_ hp
  · intro s hs
    have hs' : s = { shared := start, threads := [] } := hs
    rw [hs']
    exact ⟨hstart, by simp⟩
  · intro p l p' ⟨hinv, hthr⟩ hstep
    rcases poolStep_cases hstep with ⟨g, _, rfl⟩ | ⟨i, next, cont, _, hi, rfl⟩
    · refine ⟨hinv, ?_⟩
      intro m hm
      rcases List.mem_append.mp hm with hm | hm
      · exact hthr m hm
      · rw [List.mem_singleton.mp hm]
        exact Prog.Keeps.strengthen (hprog g) (fun t ht => ⟨G.keeps _ t hinv ht, trivial⟩)
    · have hact := hthr _ (List.mem_of_getElem? hi) p.shared (G.refl _)
      refine ⟨G.keeps _ _ hinv hact.1, ?_⟩
      intro m hm
      rcases List.mem_or_eq_of_mem_set hm with hm | hm
      · exact (hthr m hm).strengthen (fun t ht => G.trans _ _ t hact.1 ht)
      · exact hm ▸ hact.2

/-- **Rely-guarantee rule**: every step of every interleaving respects the relation. -/
theorem pool_step_respects {p p' : Pool σ} {l : Sched γ}
    (hp : (pool prog start).Reachable p) (hstep : (pool prog start).step p l p') :
    G.rel p.shared p'.shared := by
  have hthr := (pool_safe G hstart hprog hp).2
  rcases poolStep_cases hstep with ⟨g, _, rfl⟩ | ⟨i, next, cont, _, hi, rfl⟩
  · exact G.refl _
  · exact (hthr _ (List.mem_of_getElem? hi) p.shared (G.refl _)).1

end RelyGuarantee

end LTS
