import Tssh.Session.StreamRegistry

/-! # Closing the Streams of a Server

    `closeActiveStreams` (`tsshd/server.go`) leaves a nil `streamMap` and closes the streams that
    were in it.  The goroutine that `activateServer` starts and `Close` may both call it, at the
    same time; the second of them finds nothing and goes on while the first is still closing.

    * **Step lemma** (`Kept`): a nil map stays nil, and streams are taken from a map once.
    * `shutdown_closes_streams`: when the streams have been closed, none of them is open and
      registered from then on, the bus apart.
    * `replaced_cut_off`: a stream that is served by a server that was replaced gets closed by the
      goroutines that are at work, with nothing else moving.
-/

namespace StreamRegistry

open LTS

/-! ## What a step does to the streams of a server -/

/-- The streams of the server have been taken, and none of them is left to be closed. -/
def Finished (s : State) (v : Nat) : Prop :=
  s.streamMap v = none ∧ ∀ c, (s.closers c).closes v = false

section Shutdown

variable {attachable enableForwardings : Bool} {s s' : State} {l : Label} {v : Nat}

theorem delete_nil (s : State) (v' id : Nat) (hnil : s.streamMap v = none) :
    (s.delete v' id).streamMap v = none := by
  show Function.update s.streamMap v' _ v = none
  by_cases hv : v = v'
  · subst hv
    rw [Function.update_self, hnil]
    rfl
  · rw [Function.update_of_ne hv]
    exact hnil

theorem setCloser_of_ne (s : State) {c c' : Nat} (hc : c' ≠ c) (closer : Closer) :
    (s.setCloser c closer).closers c' = s.closers c' :=
  Function.update_of_ne hc ..

theorem setCloser_self (s : State) (c : Nat) (closer : Closer) :
    (s.setCloser c closer).closers c = closer :=
  Function.update_self ..

/-- A goroutine that goes elsewhere closes no streams of the server. -/
theorem closes_setCloser {s : State} {c c' : Nat} {closer : Closer}
    (hcloser : closer.closes v = false)
    (hcloses : ((s.setCloser c closer).closers c').closes v = true) :
    (s.closers c').closes v = true := by
  by_cases hc : c' = c
  · subst hc
    rw [setCloser_self, hcloser] at hcloses
    cases hcloses
  · rwa [setCloser_of_ne s hc] at hcloses

/-- What a step can do to the streams of a server: a nil map stays nil, and a goroutine that
    closes streams did so before, or takes them now while no other goroutine moves. -/
structure Kept (s s' : State) (v : Nat) : Prop where
  nil : s.streamMap v = none → s'.streamMap v = none
  closes : ∀ c, (s'.closers c).closes v = true → (s.closers c).closes v = true ∨
    ((s.streamMap v).isSome = true ∧ s'.streamMap v = none ∧
      ∀ c', c' ≠ c → s'.closers c' = s.closers c')

/-- A step that leaves the goroutines alone. -/
theorem Kept.of_closers (hnil : s.streamMap v = none → s'.streamMap v = none)
    (hclosers : s'.closers = s.closers) : Kept s s' v :=
  ⟨hnil, fun _ hcloses => .inl (hclosers ▸ hcloses)⟩

/-- A goroutine goes where it has no streams to close. -/
theorem Kept.of_setCloser {c : Nat} {closer : Closer} (hcloser : closer.closes v = false)
    (hmaps : s'.streamMap = s.streamMap) (hclosers : s'.closers = (s.setCloser c closer).closers) :
    Kept s s' v :=
  ⟨fun hnil => hmaps ▸ hnil, fun _ hcloses => .inl (closes_setCloser hcloser (hclosers ▸ hcloses))⟩

theorem stepHandler_kept {g : Nat} (hstep : HandlerStep s g s') : Kept s s' v := by
  cases hstep with
  | move pc henv =>
    refine .of_closers (fun hnil => ?_) (congrArg Env.closers henv)
    exact (congrFun (congrArg Env.streamMap henv) v).trans hnil
  | register hpc hmap =>
    refine .of_closers (fun hnil => ?_) rfl
    -- the stream is entered into another server's map
    have hv : v ≠ (s.handlers g).server := by
      rintro rfl
      cases hnil.symm.trans hmap
    exact (Function.update_of_ne hv ..).trans hnil
  | remove => exact .of_closers (delete_nil s _ _) rfl
  | close => exact .of_closers id rfl

theorem stepCloser_kept {c : Nat} (hstep : CloserStep s c s') : Kept s s' v := by
  cases hstep with
  | @take v' m caller hc hmap =>
    by_cases hv : v = v'
    · subst hv
      have hnil : Function.update s.streamMap v none v = none := Function.update_self ..
      refine ⟨fun _ => hnil, fun c' hcloses => ?_⟩
      by_cases hc' : c' = c
      · subst hc'
        exact .inr ⟨by rw [hmap]; rfl, hnil, fun _ hne => setCloser_of_ne _ hne _⟩
      · rw [setCloser_of_ne _ hc'] at hcloses
        exact .inl hcloses
    · -- the streams of another server
      have hother : (Closer.closing v' m caller).closes v = false := by
        simpa [Closer.closes] using fun heq : v' = v => hv heq.symm
      exact ⟨fun hnil => (Function.update_of_ne hv ..).trans hnil,
        fun _ hcloses => .inl (closes_setCloser hother hcloses)⟩
  | @close v' entry entries caller hc =>
    refine ⟨id, fun c' hcloses => .inl ?_⟩
    by_cases hc' : c' = c
    · subst hc'
      rw [setCloser_self] at hcloses
      rw [hc]
      exact hcloses
    · rw [setCloser_of_ne _ hc'] at hcloses
      exact hcloses
  | move closer ht hstreams hclosing hcloser henv hhandlers =>
    have hmaps := congrArg Env.streamMap henv
    have hclosers := congrArg Env.closers henv
    rcases ht with rfl | ⟨g, rfl⟩
    · exact .of_setCloser (hcloser v) hmaps hclosers
    · exact .of_setCloser (hcloser v) hmaps hclosers

theorem next_kept (hnext : next attachable enableForwardings s l = some s') : Kept s s' v := by
  cases l with
  | stream g v' =>
    obtain ⟨-, rfl⟩ := enabledIf_eq_some hnext
    exact .of_closers id rfl
  | command g command =>
    obtain ⟨-, rfl⟩ := enabledIf_eq_some hnext
    cases command <;> exact .of_closers id rfl
  | handler g ok => exact stepHandler_kept (stepHandler_cases hnext)
  | activate g c ok =>
    simp only [next, activateServer] at hnext
    split at hnext
    · obtain ⟨-, rfl⟩ := enabledIf_eq_some hnext
      split
      · split
        · exact .of_closers id rfl
        next old _ =>
          have hcloser : (Closer.starting old).closes v = false := rfl
          exact .of_setCloser hcloser rfl rfl
      · exact .of_closers id rfl
    · obtain ⟨-, rfl⟩ := enabledIf_eq_some hnext
      split <;> exact .of_closers id rfl
  | go c =>
    obtain ⟨v', -, rfl⟩ := startCloser_cases hnext
    have hcloser : (Closer.streams v' .takeover).closes v = false := rfl
    exact .of_setCloser hcloser rfl rfl
  | close c v' =>
    obtain ⟨-, rfl⟩ := enabledIf_eq_some hnext
    have hcloser : (Closer.flag v').closes v = false := rfl
    exact .of_setCloser hcloser rfl rfl
  | closer c => exact stepCloser_kept (stepCloser_cases hnext)

/-! ## The streams of the server were closed -/

/-- A server whose streams were closed stays so. -/
theorem Finished.next (h : Finished s v)
    (hnext : next attachable enableForwardings s l = some s') : Finished s' v := by
  have hkept : Kept s s' v := next_kept hnext
  refine ⟨hkept.nil h.1, fun c => Bool.eq_false_iff.mpr fun hcloses => ?_⟩
  rcases hkept.closes c hcloses with hbefore | ⟨hmap, -⟩
  · cases (h.2 c).symm.trans hbefore
  · rw [h.1] at hmap
    cases hmap

theorem Finished.run (h : Finished s v) {ls : List Label}
    (hrun : (serverRuns attachable enableForwardings).Run s ls s') : Finished s' v := by
  induction hrun with
  | nil => exact h
  | cons l ls hnext _ ih => exact ih (h.next hnext)

/-- Where the streams of the server were closed, a registered one is closed. -/
theorem Finished.closed (h : Finished s v) (hinv : Inv s) {g : Nat}
    (hserver : (s.handlers g).server = v) (hid : (s.handlers g).pc.identified = true)
    (hlisted : (s.handlers g).unlisted = false) : s.closed g = true := by
  have htracked := (hinv.ok g).tracked hid hlisted
  rw [hserver] at htracked
  rcases htracked with ⟨m, hmap, -⟩ | ⟨-, hclosed | ⟨c, entries, caller, hc, -⟩⟩
  · cases h.1.symm.trans hmap
  · exact hclosed
  · have hcloses := h.2 c
    rw [show s.closers c = .closing v entries caller from hc] at hcloses
    simp [Closer.closes] at hcloses

/-! ## The goroutines get there -/

/-- At most one goroutine has streams of the server to close, and the map is nil then. -/
def Sole (s : State) (v : Nat) : Prop :=
  ∀ c, (s.closers c).closes v = true →
    s.streamMap v = none ∧ ∀ c', (s.closers c').closes v = true → c' = c

theorem Sole.next (h : Sole s v) (hnext : next attachable enableForwardings s l = some s') :
    Sole s' v := by
  have hkept : Kept s s' v := next_kept hnext
  intro c hcloses
  rcases hkept.closes c hcloses with hbefore | ⟨hmap, hnil, hsame⟩
  · obtain ⟨hnil, honly⟩ := h c hbefore
    refine ⟨hkept.nil hnil, fun c' hcloses' => ?_⟩
    rcases hkept.closes c' hcloses' with hbefore' | ⟨hmap, -⟩
    · exact honly c' hbefore'
    · rw [hnil] at hmap
      cases hmap
  · -- the streams are taken from a map, so nobody had any before
    refine ⟨hnil, fun c' hcloses' => Decidable.byContradiction fun hne => ?_⟩
    rw [hsame c' hne] at hcloses'
    rw [(h c' hcloses').1] at hmap
    cases hmap

theorem Sole.reachable (hs : (serverRuns attachable enableForwardings).Reachable s) :
    Sole s v := by
  refine System.invariant (I := fun s => Sole s v) _ ?_ (fun _ _ _ h hnext => h.next hnext) hs
  intro s hinit c hcloses
  rw [show s = start from hinit] at hcloses
  cases hcloses

/-- Only goroutines that close servers move, and those that start one. -/
def Closes (l : Label) : Prop := ∃ c, l = .go c ∨ l = .closer c

/-- A goroutine with streams to close closes them, by induction on how many they are. -/
theorem drains {c : Nat} {entries : List (Nat × Nat)} {caller : Caller} (hsole : Sole s v)
    (hc : s.closers c = .closing v entries caller) :
    ∃ ls s', (∀ l ∈ ls, Closes l) ∧ (serverRuns attachable enableForwardings).Run s ls s' ∧
      s'.handlers = s.handlers ∧ Finished s' v := by
  have hcloses : (s.closers c).closes v = true := by simp [hc, Closer.closes]
  induction entries generalizing s with
  | nil =>
    have hstep : stepCloser s c = some (s.setCloser c (afterStreams v caller)) := by
      simp only [stepCloser, hc]
    refine ⟨[.closer c], _, by simp [Closes], .cons _ [] hstep (.nil _), rfl, (hsole c hcloses).1,
      fun c' => Bool.eq_false_iff.mpr fun hcloses' => ?_⟩
    by_cases hne : c' = c
    · rw [hne, setCloser_self, closes_afterStreams] at hcloses'
      cases hcloses'
    · rw [setCloser_of_ne _ hne] at hcloses'
      exact hne ((hsole c hcloses).2 c' hcloses')
  | cons entry entries ih =>
    have hstep : next attachable enableForwardings s (.closer c)
        = some ((s.closeStream entry.2).setCloser c (.closing v entries caller)) := by
      simp only [next, stepCloser, hc]
    have hc' := setCloser_self (s.closeStream entry.2) c (.closing v entries caller)
    obtain ⟨ls, s', hls, hrun, hhandlers, hfinished⟩ :=
      ih (hsole.next hstep) hc' (by simp [hc', Closer.closes])
    refine ⟨.closer c :: ls, s', ?_, .cons _ ls hstep hrun, hhandlers, hfinished⟩
    exact List.forall_mem_cons.mpr ⟨⟨c, .inr rfl⟩, hls⟩

/-- A goroutine takes the streams, after it was started. -/
theorem taken {c : Nat} (hcomes : (s.closers c).comes v = true) :
    ∃ ls t, (∀ l ∈ ls, Closes l) ∧ (serverRuns attachable enableForwardings).Run s ls t ∧
      t.handlers = s.handlers ∧ t.streamMap v = none := by
  have htake : ∀ {s : State} {caller : Caller}, s.closers c = .streams v caller →
      ∃ t, next attachable enableForwardings s (.closer c) = some t ∧ t.handlers = s.handlers ∧
        t.streamMap v = none := by
    intro s caller hc
    simp only [next, stepCloser, hc]
    cases hmap : s.streamMap v with
    | none => exact ⟨_, rfl, rfl, hmap⟩
    | some m => exact ⟨_, rfl, rfl, Function.update_self ..⟩
  rcases (Closer.comes_eq_true v _).mp hcomes with hc | ⟨caller, hc⟩
  · have hgo : next attachable enableForwardings s (.go c)
        = some (s.setCloser c (.streams v .takeover)) := by simp only [next, startCloser, hc]
    obtain ⟨t, hstep, hhandlers, hnil⟩ := htake (setCloser_self s c (.streams v .takeover))
    exact ⟨[.go c, .closer c], t, by simp [Closes], .cons _ _ hgo (.cons _ [] hstep (.nil _)),
      hhandlers, hnil⟩
  · obtain ⟨t, hstep, hhandlers, hnil⟩ := htake hc
    exact ⟨[.closer c], t, by simp [Closes], .cons _ [] hstep (.nil _), hhandlers, hnil⟩

/-- With a nil map, the streams are closed or one goroutine closes them. -/
theorem finishes (hsole : Sole s v) (hnil : s.streamMap v = none) :
    ∃ ls s', (∀ l ∈ ls, Closes l) ∧ (serverRuns attachable enableForwardings).Run s ls s' ∧
      s'.handlers = s.handlers ∧ Finished s' v := by
  by_cases hcloser : ∃ c, (s.closers c).closes v = true
  · obtain ⟨c, hcloses⟩ := hcloser
    cases hc : s.closers c with
    | closing v' entries caller =>
      obtain rfl : v' = v := by simpa [hc, Closer.closes] using hcloses
      exact drains hsole hc
    | _ => rw [hc] at hcloses; cases hcloses
  · refine ⟨[], s, nofun, .nil s, rfl, hnil, fun c => Bool.eq_false_iff.mpr fun hcloses => ?_⟩
    exact hcloser ⟨c, hcloses⟩

/-- **Cut off**: once the streams of a server have been closed, then for ever after every stream
    of it that is registered is closed, the bus apart; streams that arrive are refused. -/
theorem shutdown_closes_streams (hs : (serverRuns attachable enableForwardings).Reachable s)
    (hfinished : Finished s v) {ls : List Label}
    (hrun : (serverRuns attachable enableForwardings).Run s ls s') (g : Nat)
    (hserver : (s'.handlers g).server = v) (hid : (s'.handlers g).pc.identified = true)
    (hlisted : (s'.handlers g).unlisted = false) : s'.closed g = true :=
  (hfinished.run hrun).closed (Inv.reachable (hrun.reachable hs)) hserver hid hlisted

/-- The goroutine of the second client has closed the streams of the first, whose session is not
    told yet. -/
theorem takenOver_closed :
    ∃ s, (serverRuns true true).Reachable s ∧ (s.handlers 1).pc = .handling ∧
      s.closed 1 = true := by
  obtain ⟨s, hrun, hpc, hserver, hlisted, hnil⟩ :
      ∃ s, runLabels (next true true) start takenOver = some s ∧
        (s.handlers 1).pc = .handling ∧ (s.handlers 1).server = 0 ∧
        (s.handlers 1).unlisted = false ∧ s.streamMap 0 = none :=
    exists_of_runLabels (by decide +kernel)
  have hs : (serverRuns true true).Reachable s := .of_runLabels (fun _ _ _ h => h) (.init rfl) hrun
  obtain ⟨ls, s', -, hrun', hhandlers, hfinished⟩ : ∃ ls s', (∀ l ∈ ls, Closes l) ∧
      (serverRuns true true).Run s ls s' ∧ s'.handlers = s.handlers ∧ Finished s' 0 :=
    finishes (Sole.reachable hs) hnil
  rw [← hhandlers] at hpc hserver hlisted
  exact ⟨s', hrun'.reachable hs, hpc, shutdown_closes_streams (hrun'.reachable hs) hfinished
    (.nil s') 1 hserver (by rw [hpc]; rfl) hlisted⟩

/-- **Replaced servers are cut off**: where a stream is served, the bus apart, and its server is
    not the active one, the goroutines that close servers by themselves get to where all the
    streams of that server are closed. -/
theorem replaced_cut_off (hs : (serverRuns attachable enableForwardings).Reachable s) {g : Nat}
    (hpc : (s.handlers g).pc = .handling) (hcommand : (s.handlers g).command ≠ .bus)
    (hreplaced : s.activeSshUdpServer ≠ some (s.handlers g).server) :
    ∃ ls s', (∀ l ∈ ls, Closes l) ∧ (serverRuns attachable enableForwardings).Run s ls s' ∧
      Finished s' (s.handlers g).server ∧ s'.closed g = true := by
  have hok := (Inv.reachable hs).ok g
  have hshape := hok.shape
  rw [Handler.Shape, hpc] at hshape
  have hlisted : (s.handlers g).unlisted = false :=
    Bool.eq_false_iff.mpr fun hunlisted => hcommand (hshape.mp hunlisted)
  -- first the streams are taken
  obtain ⟨ls, t, hls, hrun, hhandlers, hnil⟩ : ∃ ls t, (∀ l ∈ ls, Closes l) ∧
      (serverRuns attachable enableForwardings).Run s ls t ∧ t.handlers = s.handlers ∧
      t.streamMap (s.handlers g).server = none := by
    rcases hok.watched (by rw [hpc]; rfl) hlisted with hactive | hnil | ⟨c, hcomes⟩
    · exact absurd hactive hreplaced
    · exact ⟨[], s, by simp, .nil s, rfl, hnil⟩
    · exact taken hcomes
  -- then they are closed
  obtain ⟨ls', s', hls', hrun', hhandlers', hfinished⟩ : ∃ ls' s', (∀ l ∈ ls', Closes l) ∧
      (serverRuns attachable enableForwardings).Run t ls' s' ∧ s'.handlers = t.handlers ∧
      Finished s' (s.handlers g).server := finishes (Sole.reachable (hrun.reachable hs)) hnil
  have hsame : s'.handlers g = s.handlers g := by rw [hhandlers', hhandlers]
  have hinv := Inv.reachable (hrun'.reachable (hrun.reachable hs))
  refine ⟨ls ++ ls', s', ?_, hrun.append hrun', hfinished, ?_⟩
  · intro l hl
    exact (List.mem_append.mp hl).elim (hls l) (hls' l)
  · exact hfinished.closed hinv (by rw [hsame]) (by rw [hsame, hpc]; rfl) (by rw [hsame, hlisted])

/-- From the state in which the goroutine has taken the streams and closed none of them. -/
theorem takenOver_cut_off :
    ∃ s ls s', (serverRuns true true).Reachable s ∧ (s.handlers 1).pc = .handling ∧
      s.closed 1 = false ∧ (serverRuns true true).Run s ls s' ∧ s'.closed 1 = true := by
  obtain ⟨s, hrun, hpc, hcommand, hopen, hreplaced⟩ :
      ∃ s, runLabels (next true true) start takenOver = some s ∧
        (s.handlers 1).pc = .handling ∧ (s.handlers 1).command ≠ .bus ∧ s.closed 1 = false ∧
        s.activeSshUdpServer ≠ some (s.handlers 1).server :=
    exists_of_runLabels (by decide +kernel)
  have hs : (serverRuns true true).Reachable s := .of_runLabels (fun _ _ _ h => h) (.init rfl) hrun
  obtain ⟨ls, s', -, hrun', -, hclosed⟩ := replaced_cut_off hs hpc hcommand hreplaced
  exact ⟨s, ls, s', hs, hpc, hopen, hrun', hclosed⟩

end Shutdown

end StreamRegistry
