import Mathlib.Data.List.Basic

/-! # Labelled Transition Systems

    Systems with an initial-state predicate and a labelled step relation,
    the states their runs reach, and the proof rules everything else is
    built on:

    * **Invariants**: `System.invariant` and its variant relative to an
      invariant that is already known.
    * **Settling**: `System.exists_run_of_measure`.
    * **Restriction**: `System.restrict` keeps only the steps that meet a
      condition on the state before the step, so that "in every run whose
      steps all meet the condition" is reachability in the restricted
      system.
-/

namespace LTS

/-- A labelled transition system. -/
structure System (State Label : Type) where
  init : State → Prop
  step : State → Label → State → Prop

variable {State Label : Type}

/-! ## Reachability -/

/-- States reached by a finite run from an initial state. -/
inductive System.Reachable (sys : System State Label) : State → Prop where
  | init {s : State} : sys.init s → sys.Reachable s
  | step {s s' : State} (l : Label) :
      sys.Reachable s → sys.step s l s' → sys.Reachable s'

/-- A run from `s` to `s'` that takes the steps labelled `ls`. -/
inductive System.Run (sys : System State Label) : State → List Label → State → Prop where
  | nil (s : State) : sys.Run s [] s
  | cons {s s' s'' : State} (l : Label) (ls : List Label) :
      sys.step s l s' → sys.Run s' ls s'' → sys.Run s (l :: ls) s''

variable {sys : System State Label} {s s' : State} {ls : List Label} {I : State → Prop}

theorem System.Run.reachable (h : sys.Run s ls s') (hs : sys.Reachable s) : sys.Reachable s' := by
  induction h with
  | nil s => exact hs
  | cons l ls hstep _ ih => exact ih (.step l hs hstep)

theorem System.Run.append {s s' s'' : State} {ls ls' : List Label} (h : sys.Run s ls s')
    (h' : sys.Run s' ls' s'') : sys.Run s (ls ++ ls') s'' := by
  induction h with
  | nil s => exact h'
  | cons l ls hstep _ ih => exact .cons l _ hstep (ih h')

/-- **Settling rule**: where every state that meets `I` and not `Q` has a step that keeps `I`
    and brings a measure down, a run from any state that meets `I` ends in one that meets
    `Q`. -/
theorem System.exists_run_of_measure (sys : System State Label) {I Q : State → Prop}
    {ok : Label → Prop} (measure : State → Nat)
    (hstep : ∀ s, I s → ¬ Q s → ∃ l s', ok l ∧ sys.step s l s' ∧ I s' ∧ measure s' < measure s)
    (hs : I s) : ∃ ls s', (∀ l ∈ ls, ok l) ∧ sys.Run s ls s' ∧ I s' ∧ Q s' := by
  -- by induction on a bound for the measure
  have hbound : ∀ n s, I s → measure s ≤ n →
      ∃ ls s', (∀ l ∈ ls, ok l) ∧ sys.Run s ls s' ∧ I s' ∧ Q s' := by
    intro n
    induction n with
    | zero =>
      intro s hs hn
      by_cases hQ : Q s
      · exact ⟨[], s, nofun, .nil s, hs, hQ⟩
      · obtain ⟨l, s', -, -, -, hlt⟩ := hstep s hs hQ
        omega
    | succ n ih =>
      intro s hs hn
      by_cases hQ : Q s
      · exact ⟨[], s, nofun, .nil s, hs, hQ⟩
      · obtain ⟨l, s', hl, hnext, hI, hlt⟩ := hstep s hs hQ
        obtain ⟨ls, t, hls, hrun, hend⟩ := ih s' hI (by omega)
        exact ⟨l :: ls, t, List.forall_mem_cons.mpr ⟨hl, hls⟩, .cons l ls hnext hrun, hend⟩
  exact hbound (measure s) s hs (Nat.le_refl _)

/-! ## Invariants -/

/-- **Invariant rule**: what holds initially and is kept by every step holds
    in every reachable state. -/
theorem System.invariant (sys : System State Label) (hinit : ∀ s, sys.init s → I s)
    (hstep : ∀ s l s', I s → sys.step s l s' → I s') (hs : sys.Reachable s) : I s := by
  induction hs with
  | init h => exact hinit _ h
  | step l _ h ih => exact hstep _ l _ ih h

/-- **Relative invariant rule**: the step may also use an invariant `K`
    of the same system. -/
theorem System.invariant_with (sys : System State Label) {K I : State → Prop}
    (hK : ∀ s, sys.Reachable s → K s) (hinit : ∀ s, sys.init s → I s)
    (hstep : ∀ s l s', K s → I s → sys.step s l s' → I s') (hs : sys.Reachable s) : I s := by
  induction hs with
  | init h => exact hinit _ h
  | step l hr h ih => exact hstep _ l _ (hK _ hr) ih h

/-! ## Restriction to steps that meet a condition -/

/-- Keep only the steps whose pre-state and label meet `ok`. -/
def System.restrict (sys : System State Label) (ok : State → Label → Prop) :
    System State Label where
  init := sys.init
  step := fun s l s' => ok s l ∧ sys.step s l s'

theorem System.Reachable.of_restrict {ok : State → Label → Prop}
    (h : (sys.restrict ok).Reachable s) :
    sys.Reachable s := by
  induction h with
  | init h => exact .init h
  | step l _ h ih => exact .step l ih h.2

/-! ## Systems given by a partial step function -/

variable {next : State → Label → Option State}

/-- The system of a deterministic step function: a label is enabled where the
    function is defined. -/
def System.ofStep (start : State) (next : State → Label → Option State) :
    System State Label where
  init := fun s => s = start
  step := fun s l s' => next s l = some s'

/-- The invariant rules for such a system. -/
theorem System.invariant_ofStep {start : State} (hstart : I start)
    (hnext : ∀ s l s', I s → next s l = some s' → I s')
    (hs : (System.ofStep start next).Reachable s) : I s := by
  refine System.invariant _ ?_ hnext hs
  rintro _ rfl
  exact hstart

theorem System.invariant_restrict {ok : State → Label → Prop} {start : State} (hstart : I start)
    (hnext : ∀ s l s', I s → ok s l → next s l = some s' → I s')
    (hs : ((System.ofStep start next).restrict ok).Reachable s) : I s := by
  refine System.invariant _ ?_ ?_ hs
  · rintro _ rfl
    exact hstart
  · rintro s l s' h ⟨hok, hstep⟩
    exact hnext s l s' h hok hstep

/-- A step to `s` that is enabled where the guard holds. -/
def enabledIf (guard : Prop) [Decidable guard] (s : State) : Option State :=
  if guard then some s else none

theorem enabledIf_eq_some {guard : Prop} [Decidable guard] (h : enabledIf guard s = some s') :
    guard ∧ s' = s := by
  unfold enabledIf at h
  split at h
  · next hguard => exact ⟨hguard, (Option.some.inj h).symm⟩
  · cases h

/-- Take the steps labelled `ls` one after another. -/
def runLabels (next : State → Label → Option State) : State → List Label → Option State
  | s, [] => some s
  | s, l :: ls => (next s l).bind (fun s' => runLabels next s' ls)

/-- Evaluating the step function along a list of labels gives a run. -/
theorem System.Run.of_runLabels (hnext : ∀ s l s', next s l = some s' → sys.step s l s')
    (h : runLabels next s ls = some s') : sys.Run s ls s' := by
  induction ls generalizing s with
  | nil =>
    have hs : s = s' := by simpa [runLabels] using h
    exact hs ▸ .nil s
  | cons l ls ih =>
    obtain ⟨t, ht, hrest⟩ := Option.bind_eq_some_iff.mp h
    exact .cons l ls (hnext s l t ht) (ih hrest)

/-- Evaluate a run and a condition on the state it ends in. -/
theorem exists_of_runLabels {P : State → Prop} [DecidablePred P]
    (h : (runLabels next s ls).any (fun s' => decide (P s')) = true) :
    ∃ s', runLabels next s ls = some s' ∧ P s' := by
  obtain ⟨s', hrun, hP⟩ := (Option.any_eq_true _ _).mp h
  exact ⟨s', hrun, of_decide_eq_true hP⟩

/-- Evaluate a run, one step after it, and a condition on the states before and after that
    step. -/
theorem exists_step_of_runLabels {run next : State → Label → Option State} {l : Label}
    {P : State → State → Prop} [∀ t t', Decidable (P t t')]
    (h : (runLabels run s ls).any (fun t => (next t l).any fun t' => decide (P t t')) = true) :
    ∃ t t', runLabels run s ls = some t ∧ next t l = some t' ∧ P t t' := by
  obtain ⟨t, hrun, ht⟩ := (Option.any_eq_true _ _).mp h
  obtain ⟨t', hnext, hP⟩ := (Option.any_eq_true _ _).mp ht
  exact ⟨t, t', hrun, hnext, of_decide_eq_true hP⟩

/-- A state obtained by evaluation from a reachable state is reachable. -/
theorem System.Reachable.of_runLabels (hnext : ∀ s l s', next s l = some s' → sys.step s l s')
    (hs : sys.Reachable s) (h : runLabels next s ls = some s') : sys.Reachable s' :=
  (System.Run.of_runLabels hnext h).reachable hs

/-- The same for runs whose steps all meet a decidable condition. -/
theorem System.Reachable.of_runLabels_restrict {start s : State} {ok : State → Label → Prop}
    [∀ s l, Decidable (ok s l)]
    (h : runLabels (fun s l => if ok s l then next s l else none) start ls = some s) :
    ((System.ofStep start next).restrict ok).Reachable s := by
  apply System.Reachable.of_runLabels _ (.init rfl) h
  intro s l s' hnext
  simpa [System.restrict, System.ofStep, Option.ite_none_right_eq_some] using hnext

end LTS
