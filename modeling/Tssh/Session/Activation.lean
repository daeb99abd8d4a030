import Tssh.Session.BusInit
import Tssh.Session.Registry
import Tssh.Session.StreamRegistry

/-! # Three Views of an Activation

    `activateServer` (`tsshd/server.go`) is modelled in three places: as a function of the process
    (`Tssh.Session.BusInit`), step by step against the handlers that create and attach sessions
    (`Tssh.Session.Registry`), and step by step against the streams of the servers
    (`Tssh.Session.StreamRegistry`).  An activation that nobody disturbs does in each of the
    systems what the function says.

    * `OfRegistry`, `OfStreams`: the parts of the process that a system has.
    * `registry_activates`, `streams_activates`: the goroutine gets from the lock to the end of
      `activateServer`, with the result of the function.
-/

namespace Activation

open LTS

variable {g g' : BusInit.Process} {v : Nat} {name : String}

/-- The servers in use after an activation. -/
theorem serving_activated (hact : BusInit.Activated g v g') {serving : Nat → Bool}
    (h : ∀ w, serving w = (g.servers w).serving) (w : Nat) :
    Function.update serving v true w = (g'.servers w).serving := by
  rw [hact.servers]
  by_cases hw : w = v
  · rw [hw, Function.update_self, Function.update_self]
  · rw [Function.update_of_ne hw, Function.update_of_ne hw, h]

/-! ## The sessions -/

/-- The active server, the servers in use and the owners of the sessions. -/
structure OfRegistry (g : BusInit.Process) (s : Session.State) : Prop where
  active : s.active = g.activeSshUdpServer
  serving : ∀ v, s.serving v = (g.servers v).serving
  owners : s.sessionMap.map (fun r => (s.sessions r).server) = g.sessions.map (·.2.server)

section Registry

open Session

variable (attachable : Bool) {s : Session.State} {γ : Nat}

/-- `detachAllSessions` behind its list, by induction on the sessions that are left. -/
theorem detaches {L : List Nat} (hγ : s.routines γ = .activate (.detach v L)) :
    ∃ ls s', (registry attachable).Run s ls s' ∧ s'.routines γ = .activate (.serve v) ∧
      s'.active = s.active ∧ s'.serving = s.serving ∧ s'.sessionMap = s.sessionMap ∧
      ∀ r, (s.sessions r).server = none ∨ r ∈ L → (s'.sessions r).server = none := by
  induction L generalizing s with
  | nil =>
    have hstep : next attachable s (.step γ 0) = some (s.setRoutine γ (.activate (.serve v))) := by
      simp [next, hγ, Routine.step, Activate.step, Effect.apply]
    exact ⟨[_], _, .cons _ [] hstep (.nil _), by simp, rfl, rfl, rfl, by simp [State.setRoutine]⟩
  | cons r L ih =>
    have hstep : next attachable s (.step γ 0) =
        some (((Effect.setServer r none).apply s γ).setRoutine γ (.activate (.detach v L))) := by
      simp [next, hγ, Routine.step, Activate.step]
    obtain ⟨ls, s', hrun, hserve, hactive, hserving, hmap, hnone⟩ := ih (setRoutine_self ..)
    refine ⟨_ :: ls, s', .cons _ ls hstep hrun, hserve, hactive, hserving, hmap, fun q hq => ?_⟩
    apply hnone
    by_cases hqr : q = r
    · simp [hqr, State.setRoutine, Effect.apply, State.setSession]
    · simpa [hqr, State.setRoutine, Effect.apply, State.setSession] using hq

/-- The lock, the test of `busClosing`, the `Swap` and the list of the sessions. -/
theorem lists (hγ : s.routines γ = .activate (.lock v)) (hfree : s.attachMutex = none) :
    ∃ s', runLabels (next true) s (List.replicate 4 (.step γ 0)) = some s' ∧
      s'.routines γ = .activate (.detach v s.sessionMap) ∧ s'.active = some v ∧
      s'.serving = s.serving ∧ s'.sessionMap = s.sessionMap := by
  simp [runLabels, List.replicate, next, hγ, Routine.step, Activate.step, Effect.apply,
    State.setRoutine, hfree]

/-- The flag, and the return. -/
theorem serves (hγ : s.routines γ = .activate (.serve v)) :
    ∃ s', runLabels (next attachable) s (List.replicate 2 (.step γ 0)) = some s' ∧
      (s'.routines γ = .idle ∧ s'.returned = some v) ∧ s'.active = s.active ∧
      s'.serving = Function.update s.serving v true ∧ s'.sessionMap = s.sessionMap ∧
      s'.sessions = s.sessions := by
  simp [runLabels, List.replicate, next, hγ, Routine.step, Activate.step, Effect.apply,
    State.setRoutine]

/-- Without attachable mode. -/
theorem swaps (hγ : s.routines γ = .activate (.lock v)) (hnone : s.active = none) :
    ∃ s', runLabels (next false) s (List.replicate 3 (.step γ 0)) = some s' ∧
      (s'.routines γ = .idle ∧ s'.returned = some v) ∧ s'.active = some v ∧
      s'.serving = Function.update s.serving v true ∧ s'.sessionMap = s.sessionMap ∧
      s'.sessions = s.sessions := by
  simp [runLabels, List.replicate, next, hγ, Routine.step, Activate.step, Effect.apply,
    State.setRoutine, hnone]

/-- An undisturbed activation has the result of the function. -/
theorem registry_activates (h : OfRegistry g s) (hγ : s.routines γ = .activate (.lock v))
    (hfree : s.attachMutex = none) (hok : BusInit.activateServer g v name = .ok g') :
    ∃ ls s', (registry (g.servers v).attachable).Run s ls s' ∧
      (s'.routines γ = .idle ∧ s'.returned = some v) ∧ OfRegistry g' s' := by
  obtain ⟨hplace, hact⟩ := BusInit.activateServer_ok hok
  have hsessions := hact.sessions
  unfold BusInit.Refused at hplace
  cases hattachable : (g.servers v).attachable with
  | true =>
    rw [hattachable, if_pos rfl] at hsessions
    obtain ⟨s₁, hrun₁, hdetach, hactive₁, hserving₁, hmap₁⟩ := lists hγ hfree
    obtain ⟨ls, s₂, hrun₂, hserve, hactive₂, hserving₂, hmap₂, hnone⟩ :=
      detaches true hdetach
    obtain ⟨s', hrun, hdone, hactive, hserving, hmap, hsame⟩ := serves true hserve
    have hfirst : (registry true).Run s _ s₁ := .of_runLabels (fun _ _ _ h => h) hrun₁
    have hlast : (registry true).Run s₂ _ s' := .of_runLabels (fun _ _ _ h => h) hrun
    refine ⟨_, s', (hfirst.append hrun₂).append hlast, hdone, ?_, ?_, ?_⟩
    · rw [hactive, hactive₂, hactive₁, hact.active]
    · rw [hserving, hserving₂, hserving₁]
      exact serving_activated hact h.serving
    · -- no session of the map has an owner
      have hlength := congrArg List.length h.owners
      simp only [List.length_map] at hlength
      have hleft : ∀ r ∈ s.sessionMap, (s'.sessions r).server = none := fun r hr =>
        hsame ▸ hnone r (.inr hr)
      rw [hmap, hmap₂, hmap₁, hsessions, List.map_map, List.map_congr_left hleft, List.map_const',
        hlength, ← List.map_const']
      rfl
  | false =>
    rw [hattachable, if_neg (by decide)] at hsessions
    rw [hattachable, if_neg (by decide), not_not, ← h.active] at hplace
    obtain ⟨s', hrun, hdone, hactive, hserving, hmap, hsame⟩ := swaps hγ hplace
    refine ⟨_, s', .of_runLabels (fun _ _ _ h => h) hrun, hdone, ?_, ?_, ?_⟩
    · rw [hactive, hact.active]
    · rw [hserving]
      exact serving_activated hact h.serving
    · rw [hmap, hsame, hsessions]
      exact h.owners

end Registry

/-! ## The streams -/

/-- The active server and the servers in use. -/
structure OfStreams (g : BusInit.Process) (s : StreamRegistry.State) : Prop where
  active : s.activeSshUdpServer = g.activeSshUdpServer
  serving : ∀ v, s.serving v = (g.servers v).serving

section Streams

open StreamRegistry

variable {enableForwardings : Bool} {s : StreamRegistry.State} {γ c : Nat}
  (hpc : (s.handlers γ).pc = .activate) (hserver : (s.handlers γ).server = v)
  (hfree : s.attachMutex = false) (hidle : s.closers c = .idle)
include hpc hserver hfree hidle

/-- A server is replaced, and goroutine `c` is started. -/
theorem replaces {old : Nat} (hold : s.activeSshUdpServer = some old) :
    ∃ s', runLabels (next true enableForwardings) s
        [.activate γ c true, .go c, .handler γ true, .handler γ true] = some s' ∧
      (s'.handlers γ).pc = .ack ∧ s'.activeSshUdpServer = some v ∧
      s'.serving = Function.update s.serving v true ∧ s'.closers c = .streams old .takeover := by
  simp [runLabels, next, activateServer, enabledIf, hpc, hserver, hfree, hidle, hold, startCloser,
    stepHandler, State.setPc, State.setHandler, State.setCloser]

/-- No server is replaced. -/
theorem takes_place {attachable : Bool} (hnone : s.activeSshUdpServer = none) :
    ∃ s', runLabels (next attachable enableForwardings) s [.activate γ c true, .handler γ true] =
        some s' ∧ (s'.handlers γ).pc = .ack ∧ s'.activeSshUdpServer = some v ∧
      s'.serving = Function.update s.serving v true := by
  cases attachable <;>
    simp [runLabels, next, activateServer, enabledIf, hpc, hserver, hfree, hidle, hnone,
      stepHandler, State.setPc, State.setHandler]

/-- The same here, and the servers whose shutdown the function starts are left to goroutine
    `c`. -/
theorem streams_activates (h : OfStreams g s) (hok : BusInit.activateServer g v name = .ok g') :
    ∃ ls s' started, (serverRuns (g.servers v).attachable enableForwardings).Run s ls s' ∧
      (s'.handlers γ).pc = .ack ∧ OfStreams g' s' ∧ g'.closing = g.closing ++ started ∧
      ∀ old ∈ started, s'.closers c = .streams old .takeover := by
  obtain ⟨hplace, hact⟩ := BusInit.activateServer_ok hok
  have hclosing := hact.closing
  rw [← h.active] at hclosing
  cases hold : s.activeSshUdpServer with
  | none =>
    obtain ⟨s', hrun, hack, hactive, hserving⟩ := takes_place hpc hserver hfree hidle hold
    refine ⟨_, s', [], .of_runLabels (fun _ _ _ h => h) hrun, hack,
      ⟨hactive.trans hact.active.symm, hserving ▸ serving_activated hact h.serving⟩, ?_, nofun⟩
    rw [hclosing, hold]
    split <;> simp
  | some old =>
    -- only in attachable mode
    have hattachable : (g.servers v).attachable = true := by
      by_contra hnot
      unfold BusInit.Refused at hplace
      rw [if_neg hnot, ← h.active, hold] at hplace
      exact hplace nofun
    obtain ⟨s', hrun, hack, hactive, hserving, hcloser⟩ := replaces hpc hserver hfree hidle hold
    rw [hattachable]
    refine ⟨_, s', [old], .of_runLabels (fun _ _ _ h => h) hrun, hack,
      ⟨hactive.trans hact.active.symm, hserving ▸ serving_activated hact h.serving⟩, ?_, ?_⟩
    · rw [hclosing, hattachable, hold]
      rfl
    · intro old' hmem
      rw [List.mem_singleton.mp hmem]
      exact hcloser

end Streams

end Activation
