import Tssh.Session.Registry

/-! # Which Server Owns the Sessions

    In attachable mode a client that connects anew activates its own server: `activateServer`
    swaps it in and detaches all sessions it finds in `sessionMap`.  From then on every
    session should belong to the active server or to nobody, so that the active server can
    attach all sessions it does not own.

    * `attachSession` checks under `attachMutex` that its server is still the active one.
    * `handleSessionEvent` checks it when the stream opens, and `newSessionContext` inserts
      the session later, under `sessionMutex` only.  A server that has been replaced in the
      meantime then owns a session that nobody detaches.

    Ownership holds in the runs in which a server inserts a session only while it is active,
    or before the activation that replaces it lists the map.
-/

open LTS

namespace Session

variable {s s' : State} {l : Label} {g r : Nat} {e : Effect} {q q' : Routine}

/-! ## Invariant -/

/-- The session belongs to nobody or to the active server. -/
def State.Owned (s : State) (r : Nat) : Prop :=
  (s.sessions r).server = none ∨ (s.sessions r).server = s.active

def State.AllOwned (s : State) : Prop := ∀ r ∈ s.sessionMap, s.Owned r

/-- The goroutine is between `attachMutex.Lock` and `attachMutex.Unlock`. -/
def Routine.holds : Routine → Bool
  | .attach (.active _ _) | .attach (.detached _ _) | .attach (.streams _ _)
  | .attach (.ack _ _) | .attach (.store _ _) | .attach .unlock => true
  | .activate (.busClosing _) | .activate (.swap _) | .activate (.list _ _)
  | .activate (.detach _ _) | .activate (.serve _) | .activate (.unlock _) => true
  | _ => false

/-- An activation that has replaced the active server and not yet detached all sessions. -/
def Routine.detaches : Routine → Bool
  | .activate (.list server oldServer) => oldServer != some server
  | .activate (.detach _ _) => true
  | _ => false

/-- What a goroutine that holds `attachMutex` knows. -/
def Routine.Knows (s : State) : Routine → Prop
  | .attach (.detached server _) | .attach (.streams server _) | .attach (.ack server _)
  | .attach (.store server _) => s.active = some server
  | .activate (.list server oldServer) =>
    s.active = some server ∧ (oldServer = some server ∨ s.returned = none)
  | .activate (.detach server sessions) =>
    s.active = some server ∧ ∀ r ∈ s.sessionMap, r ∈ sessions ∨ s.Owned r
  | .activate (.serve server) | .activate (.unlock server) => s.active = some server
  | _ => True

structure OwnerInv (s : State) : Prop where
  held : ∀ g, (s.routines g).holds = true → s.attachMutex = some g
  knows : ∀ g, (s.routines g).Knows s
  owned : (∀ g, (s.routines g).detaches = false) → s.AllOwned
  returned : ∀ a, s.returned = some a → s.active = some a ∧ s.AllOwned

theorem start_ownerInv : OwnerInv start where
  held := fun _ h => absurd h Bool.false_ne_true
  knows := fun _ => trivial
  owned := fun _ _ hr => absurd hr List.not_mem_nil
  returned := fun _ h => absurd h (Option.some_ne_none _).symm

/-- Outside the lock a goroutine knows nothing. -/
theorem Routine.knows_of_not_holds (h : q.holds = false) : q.Knows s := by
  unfold Routine.Knows
  split
  all_goals first | cases h | trivial

theorem Routine.not_detaches_of_not_holds (h : q.holds = false) : q.detaches = false := by
  unfold Routine.detaches
  split <;> first | rfl | cases h

/-- **Mutual exclusion**: if `g` holds the lock, no other goroutine does. -/
theorem OwnerInv.others (h : OwnerInv s) (hg : (s.routines g).holds = true) {g' : Nat}
    (hne : g' ≠ g) : (s.routines g').holds = false := by
  by_contra hheld
  have hg' := h.held g' (by simpa using hheld)
  rw [h.held g hg] at hg'
  exact hne (Option.some.inj hg').symm

/-- If the holder of the lock is not detaching, nobody is. -/
theorem OwnerInv.allOwned (h : OwnerInv s) (hg : (s.routines g).holds = true)
    (hd : (s.routines g).detaches = false) : s.AllOwned := by
  apply h.owned
  intro g'
  by_cases hne : g' = g
  · rw [hne, hd]
  · exact Routine.not_detaches_of_not_holds (h.others hg hne)

/-! ## Steps that keep the lock and the active server -/

/-- Goroutine `g` moves on without an effect. -/
theorem OwnerInv.move (h : OwnerInv s) (hk : q'.Knows s)
    (hh : q'.holds = true → s.attachMutex = some g)
    (hd : q'.detaches = true ∨ (s.routines g).detaches = false ∨ s.AllOwned) :
    OwnerInv (s.setRoutine g q') := by
  constructor
  · intro g'
    by_cases hg : g' = g
    · rw [hg, setRoutine_self]
      exact hh
    · rw [setRoutine_ne hg]
      exact h.held g'
  · intro g'
    by_cases hg : g' = g
    · rw [hg, setRoutine_self]
      exact hk
    · rw [setRoutine_ne hg]
      exact h.knows g'
  · intro hall
    rcases hd with hd | hd | hd
    · have := hall g
      rw [setRoutine_self, hd] at this
      cases this
    · apply h.owned
      intro g'
      by_cases hg : g' = g
      · rw [hg, hd]
      · rw [← hall g', setRoutine_ne hg]
    · exact hd
  · exact h.returned

/-- The same for a goroutine that is outside the lock afterwards. -/
theorem OwnerInv.move_out (h : OwnerInv s) (hq : q'.holds = false)
    (hd : (s.routines g).detaches = false) : OwnerInv (s.setRoutine g q') := by
  apply h.move (Routine.knows_of_not_holds hq)
  · intro hh
    rw [hq] at hh
    cases hh
  · exact .inr (.inl hd)

/-- A change that adds to the map, and stores in server pointers, only what the active server
    owns. -/
theorem OwnerInv.update (h : OwnerInv s) (hactive : s'.active = s.active)
    (hmutex : s'.attachMutex = s.attachMutex) (hreturned : s'.returned = s.returned)
    (hroutines : s'.routines = s.routines)
    (hmap : ∀ r ∈ s'.sessionMap,
      (r ∈ s.sessionMap ∧ (s'.sessions r).server = (s.sessions r).server) ∨ s'.Owned r) :
    OwnerInv s' := by
  have howned : ∀ r, (s'.sessions r).server = (s.sessions r).server → s.Owned r → s'.Owned r := by
    intro r hr h
    rw [State.Owned, hr, hactive]
    exact h
  have hall : s.AllOwned → s'.AllOwned := by
    intro hs r hr
    rcases hmap r hr with ⟨hin, hserver⟩ | hr
    · exact howned r hserver (hs r hin)
    · exact hr
  constructor
  · intro g
    rw [hroutines, hmutex]
    exact h.held g
  · intro g
    have hg := h.knows g
    rw [hroutines]
    cases hq : s.routines g with
    | idle | handle | exit | closeAll | closing => trivial
    -- these depend on the active server only
    | attach a =>
      rw [hq] at hg
      cases a with
      | detached server r | streams server r | ack server r | store server r =>
        exact hactive.trans hg
      | lookup | closed | lock | active | unlock => trivial
    | activate a =>
      rw [hq] at hg
      cases a with
      | list server old =>
        show s'.active = some server ∧ (old = some server ∨ s'.returned = none)
        rw [hactive, hreturned]
        exact hg
      | detach server sessions =>
        -- a session that came meanwhile is owned, the others are still on the list
        refine ⟨hactive.trans hg.1, ?_⟩
        intro r hr
        rcases hmap r hr with ⟨hin, hserver⟩ | hr
        · rcases hg.2 r hin with hmem | ho
          · exact .inl hmem
          · exact .inr (howned r hserver ho)
        · exact .inr hr
      | serve server | unlock server => exact hactive.trans hg
      | lock | busClosing | swap => trivial
  · intro hg
    rw [hroutines] at hg
    exact hall (h.owned hg)
  · intro a ha
    rw [hreturned] at ha
    rw [hactive]
    exact ⟨(h.returned a ha).1, hall (h.returned a ha).2⟩

/-- Effects that neither move the lock or the active server, nor add a session. -/
def Effect.keepsOwners (s : State) : Effect → Prop
  | .nothing | .setIoStream _ | .setErrStream _ | .close _ | .delete _ | .clear | .serve _ => True
  | .setServer _ server => server = none ∨ server = s.active
  | _ => False

theorem OwnerInv.effect (h : OwnerInv s) (he : e.keepsOwners s) : OwnerInv (e.apply s g) := by
  -- a session object changes, and its server pointer is kept or stored as allowed
  have hset : ∀ r c, c.server = (s.sessions r).server ∨ c.server = none ∨ c.server = s.active →
      OwnerInv (s.setSession r c) := by
    intro r c hc
    refine h.update rfl rfl rfl rfl ?_
    intro r' hr'
    by_cases hr : r' = r
    · rcases hc with hc | hc
      · exact .inl ⟨hr', by simp [State.setSession, hr, hc]⟩
      · exact .inr (by simpa [State.Owned, State.setSession, hr] using hc)
    · exact .inl ⟨hr', by simp [State.setSession, hr]⟩
  cases e with
  | nothing => exact h
  | setIoStream r | setErrStream r | close r => exact hset r _ (.inl rfl)
  | setServer r server => exact hset r _ (.inr he)
  | delete id =>
    refine h.update rfl rfl rfl rfl ?_
    exact fun r hr => .inl ⟨(List.mem_filter.mp hr).1, rfl⟩
  | clear =>
    refine h.update rfl rfl rfl rfl ?_
    exact fun r hr => absurd hr List.not_mem_nil
  | serve server =>
    refine h.update rfl rfl rfl rfl ?_
    exact fun r hr => .inl ⟨hr, rfl⟩
  | insert | lock | unlock | swap | finish => exact he.elim

/-! ## Steps of the lock and of the active server -/

theorem OwnerInv.lock (h : OwnerInv s) (hfree : s.attachMutex = none) (hk : q'.Knows s)
    (hd : (s.routines g).detaches = false) :
    OwnerInv ((Effect.lock.apply s g).setRoutine g q') := by
  have hlock : OwnerInv (Effect.lock.apply s g) := by
    refine ⟨?_, h.knows, h.owned, h.returned⟩
    intro g' hg'
    rw [h.held g' hg'] at hfree
    cases hfree
  exact hlock.move hk (fun _ => rfl) (.inr (.inl hd))

/-- The lock is released by its holder, which is not detaching. -/
theorem OwnerInv.unlock (h : OwnerInv s) (hg : (s.routines g).holds = true)
    (hd : (s.routines g).detaches = false) :
    OwnerInv ((Effect.unlock.apply s g).setRoutine g .idle) := by
  have hidle : OwnerInv (s.setRoutine g .idle) := h.move_out rfl hd
  refine ⟨?_, hidle.knows, hidle.owned, hidle.returned⟩
  intro g' hg'
  have hheld := hidle.held g' hg'
  rw [show (s.setRoutine g .idle).attachMutex = some g from h.held g hg] at hheld
  obtain rfl := Option.some.inj hheld
  rw [setRoutine_self] at hg'
  cases hg'

/-- `activateServer` returns: all sessions are detached or belong to its server. -/
theorem OwnerInv.finish (h : OwnerInv s) {server : Nat}
    (hg : s.routines g = .activate (.unlock server)) :
    OwnerInv (((Effect.finish server).apply s g).setRoutine g .idle) := by
  have hholds : (s.routines g).holds = true := by rw [hg]; rfl
  have hd : (s.routines g).detaches = false := by rw [hg]; rfl
  have hactive : s.active = some server := by
    have hk := h.knows g
    rwa [hg] at hk
  have hfree := h.unlock hholds hd
  have howned := h.allOwned hholds hd
  refine ⟨hfree.held, ?_, fun _ => howned, ?_⟩
  · intro g'
    apply Routine.knows_of_not_holds
    by_cases hne : g' = g
    · rw [hne, setRoutine_self]
      rfl
    · rw [setRoutine_ne hne]
      exact h.others hholds hne
  · intro a ha
    obtain rfl := Option.some.inj ha
    exact ⟨hactive, howned⟩

/-- The holder of the lock swaps the active server. -/
theorem OwnerInv.swap (h : OwnerInv s) {server : Nat}
    (hg : s.routines g = .activate (.swap server)) :
    OwnerInv (((Effect.swap server).apply s g).setRoutine g
      (.activate (.list server s.active))) := by
  have hholds : (s.routines g).holds = true := by rw [hg]; rfl
  have hd : (s.routines g).detaches = false := by rw [hg]; rfl
  have howned := h.allOwned hholds hd
  by_cases hsame : s.active = some server
  · -- the server is active already: nothing changes
    have hs : (Effect.swap server).apply s g = s := by
      simp only [Effect.apply, hsame, if_true]
      rw [← hsame]
    rw [hs]
    refine h.move ⟨hsame, .inl hsame⟩ (fun _ => h.held g hholds) (.inr (.inl hd))
  · have hret : ((Effect.swap server).apply s g).returned = none := by
      simp [Effect.apply, hsame]
    constructor
    · intro g' hg'
      by_cases hne : g' = g
      · rw [hne]
        exact h.held g hholds
      · rw [setRoutine_ne hne] at hg'
        exact h.held g' hg'
    · intro g'
      by_cases hne : g' = g
      · rw [hne, setRoutine_self]
        exact ⟨rfl, .inr hret⟩
      · rw [setRoutine_ne hne]
        exact Routine.knows_of_not_holds (h.others hholds hne)
    · intro hall
      have hlist := hall g
      rw [setRoutine_self] at hlist
      simp [Routine.detaches, hsame] at hlist
    · intro a ha
      have ha' : ((Effect.swap server).apply s g).returned = some a := ha
      rw [hret] at ha'
      cases ha'

/-! ## Insertions -/

/-- An activation has replaced the active server and not yet listed the sessions. -/
def State.unlisted (s : State) : Bool :=
  match s.attachMutex with
  | none => false
  | some g =>
    match s.routines g with
    | .activate (.list server oldServer) => oldServer != some server
    | _ => false

/-- The server for which `newSessionContext` inserts a session, where it does not fail. -/
def inserting (s : State) (choice : Nat) : Routine → Option Nat
  | .handle (.create server id) => if choice = 0 ∧ s.find id = none then some server else none
  | _ => none

/-- A server inserts a session only while it is the active one, or before the activation that
    replaces it lists the map. -/
def InsertsActive (s : State) : Label → Prop
  | .step g choice =>
    ∀ server ∈ inserting s choice (s.routines g), s.active = some server ∨ s.unlisted = true
  | _ => True

instance (s : State) (l : Label) : Decidable (InsertsActive s l) :=
  match l with
  | .step _ _ => inferInstanceAs (Decidable (∀ server ∈ _, _))
  | .stream _ _ | .bus _ _ | .exit _ _ | .closeAll _ | .message _ _ _ => instDecidableTrue

theorem OwnerInv.insert (h : OwnerInv s) {server id : Nat}
    (hok : s.active = some server ∨ s.unlisted = true) :
    OwnerInv ((Effect.insert server id).apply s g) := by
  have hnew : ∀ r ∈ ((Effect.insert server id).apply s g).sessionMap,
      r = s.count ∨ (r ∈ s.sessionMap ∧ r ≠ s.count) := by
    intro r hr
    by_cases hc : r = s.count
    · exact .inl hc
    · exact .inr ⟨by simpa [Effect.apply, hc] using hr, hc⟩
  rcases hok with hactive | hlist
  · refine h.update rfl rfl rfl rfl ?_
    intro r hr
    rcases hnew r hr with rfl | ⟨hin, hne⟩
    · right
      simp [State.Owned, Effect.apply, State.setSession, hactive]
    · exact .inl ⟨hin, by simp [Effect.apply, State.setSession, hne]⟩
  · -- the activation will find the new session when it lists the map
    unfold State.unlisted at hlist
    split at hlist
    · cases hlist
    next g₀ hmutex =>
    split at hlist
    · next srv old hg₀ =>
      have hholds : (s.routines g₀).holds = true := by rw [hg₀]; rfl
      have hk := h.knows g₀
      rw [hg₀] at hk
      have hnone : s.returned = none := by
        apply hk.2.resolve_left
        simpa using hlist
      refine ⟨h.held, ?_, ?_, ?_⟩
      · intro g'
        by_cases hne : g' = g₀
        · rw [hne, apply_routines, hg₀]
          exact hk
        · rw [apply_routines]
          exact Routine.knows_of_not_holds (h.others hholds hne)
      · intro hall
        have hd := hall g₀
        rw [apply_routines, hg₀] at hd
        have hold : (old != some srv) = false := hd
        rw [hold] at hlist
        cases hlist
      · intro a ha
        have ha' : s.returned = some a := ha
        rw [hnone] at ha'
        cases ha'
    · cases hlist

/-! ## Steps of the goroutines -/

theorem OwnerInv.handler (h : OwnerInv s) {hd : Handler} {choice : Nat}
    (hg : s.routines g = .handle hd) (hs : hd.step s choice = some (e, q'))
    (hok : ∀ server ∈ inserting s choice (.handle hd),
      s.active = some server ∨ s.unlisted = true) :
    OwnerInv ((e.apply s g).setRoutine g q') := by
  have hout : q'.holds = false → OwnerInv (e.apply s g) →
      OwnerInv ((e.apply s g).setRoutine g q') := by
    intro hq he
    apply he.move_out hq
    rw [apply_routines, hg]
    rfl
  cases hd with
  | message server => cases hs
  | create server id =>
    simp only [Handler.step] at hs
    split at hs
    · next hnew =>
      cases hs
      exact hout rfl (h.insert (hok server (if_pos hnew)))
    · cases hs
      exact hout rfl h
  | serving server | active server =>
    simp only [Handler.step] at hs
    split at hs <;> cases hs <;> exact hout rfl h
  | start r | ack r | wait r =>
    cases hs
    exact hout rfl h
  | forwardIn r | forwardErr r | ended r =>
    cases hs
    exact hout rfl (h.effect trivial)

theorem OwnerInv.attach (h : OwnerInv s) {a : Attach} {attachable : Bool} {choice : Nat}
    (hg : s.routines g = .attach a) (hs : a.step attachable s choice = some (e, q')) :
    OwnerInv ((e.apply s g).setRoutine g q') := by
  have hd : (s.routines g).detaches = false := by rw [hg]; rfl
  have hk := h.knows g
  rw [hg] at hk
  -- a step inside the lock without an effect
  have hin : (Routine.attach a).holds = true → q'.Knows s → OwnerInv (s.setRoutine g q') := by
    intro hholds hq
    exact h.move hq (fun _ => h.held g (by rw [hg, hholds])) (.inr (.inl hd))
  cases a with
  | lookup server id | closed server r =>
    simp only [Attach.step] at hs
    split at hs <;> cases hs <;> exact h.move_out rfl hd
  | lock server r =>
    simp only [Attach.step] at hs
    split at hs
    · next hfree =>
      cases hs
      exact h.lock hfree trivial hd
    · cases hs
  | active server r =>
    cases hs
    apply hin rfl
    split
    · next hactive => exact hactive
    · trivial
  | detached server r | streams server r | ack server r =>
    cases hs
    apply hin rfl
    split
    · exact hk
    · trivial
  | store server r =>
    cases hs
    have hstore := h.effect (e := .setServer r (some server)) (g := g) (.inr hk.symm)
    exact hstore.move trivial (fun _ => h.held g (by rw [hg]; rfl)) (.inr (.inl hd))
  | unlock =>
    cases hs
    exact h.unlock (by rw [hg]; rfl) hd

theorem OwnerInv.activate (h : OwnerInv s) {a : Activate} {choice : Nat}
    (hg : s.routines g = .activate a) (hs : a.step true s choice = some (e, q')) :
    OwnerInv ((e.apply s g).setRoutine g q') := by
  have hk := h.knows g
  rw [hg] at hk
  have hheld : (Routine.activate a).holds = true → s.attachMutex = some g := by
    intro hholds
    exact h.held g (by rw [hg, hholds])
  cases a with
  | lock server =>
    simp only [Activate.step, if_true] at hs
    split at hs
    · next hfree =>
      cases hs
      exact h.lock hfree trivial (by rw [hg]; rfl)
    · cases hs
  | busClosing server =>
    have hd : (s.routines g).detaches = false := by rw [hg]; rfl
    simp only [Activate.step] at hs
    split at hs
    · cases hs
      exact h.move trivial (fun _ => hheld rfl) (.inr (.inl hd))
    · cases hs
      exact h.unlock (by rw [hg]; rfl) hd
  | swap server =>
    cases hs
    exact h.swap hg
  | list server old =>
    cases hs
    -- the list holds every session of the map
    exact h.move ⟨hk.1, fun r hr => .inl hr⟩ (fun _ => hheld rfl) (.inl rfl)
  | detach server sessions =>
    simp only [Activate.step] at hs
    split at hs
    · next hnil =>
      cases hs
      -- none is left on the list, so all are owned
      have howned : s.AllOwned := by
        intro r hr
        apply (hk.2 r hr).resolve_left
        rw [hnil]
        exact List.not_mem_nil
      refine h.move ?_ (fun _ => hheld rfl) (.inr (.inr howned))
      exact hk.1
    · split at hs <;> cases hs
      next r hr =>
      -- a detached session counts as owned
      have hdetach := h.effect (e := .setServer r none) (g := g) (.inl rfl)
      refine hdetach.move ⟨hk.1, ?_⟩ (fun _ => hheld rfl) (.inl rfl)
      intro r' hr'
      by_cases hne : r' = r
      · right
        simp [State.Owned, Effect.apply, State.setSession, hne]
      · rcases hk.2 r' hr' with hmem | ho
        · exact .inl (((mem_eraseIdx_or hr r').mp hmem).resolve_left hne)
        · right
          simpa [State.Owned, Effect.apply, State.setSession, hne] using ho
  | serve server =>
    cases hs
    have hserve := h.effect (e := .serve server) (g := g) trivial
    exact hserve.move hk (fun _ => hheld rfl) (.inr (.inl (by rw [apply_routines, hg]; rfl)))
  | unlock server =>
    cases hs
    exact h.finish hg

/-- **Run lemma**. -/
theorem registry_ownerInv (hs : ((registry true).restrict InsertsActive).Reachable s) :
    OwnerInv s := by
  refine System.invariant_restrict start_ownerInv (fun s l s' h hok hstep => ?_) hs
  obtain ⟨g, e, q', rfl, hmove⟩ := next_cases hstep
  rcases hmove with ⟨choice, rfl, hq⟩ | ⟨rfl, hwait, hentry⟩
  · have hout : q'.holds = false → (s.routines g).detaches = false → e.keepsOwners s →
        OwnerInv ((e.apply s g).setRoutine g q') := by
      intro hq' hd he
      exact (h.effect he).move_out hq' (by rwa [apply_routines])
    cases hr : s.routines g with
    | idle =>
      rw [hr] at hq
      cases hq
    | handle hd =>
      rw [hr] at hq
      exact h.handler hr hq (hr ▸ hok)
    | attach a =>
      rw [hr] at hq
      exact h.attach hr hq
    | activate a =>
      rw [hr] at hq
      exact h.activate hr hq
    | exit id =>
      rw [hr] at hq hout
      simp only [Routine.step] at hq
      split at hq <;> cases hq <;> exact hout rfl rfl trivial
    | closeAll =>
      rw [hr] at hq hout
      cases hq
      exact hout rfl rfl trivial
    | closing sessions =>
      rw [hr] at hq hout
      simp only [Routine.step] at hq
      split at hq
      · cases hq
        exact hout rfl rfl trivial
      · split at hq <;> cases hq
        exact hout rfl rfl trivial
  · apply h.move_out
    · unfold Routine.isEntry at hentry
      split at hentry <;> first | rfl | cases hentry
    · cases hr : s.routines g with
      | activate a =>
        rw [hr] at hwait
        cases hwait
      | _ => rfl

/-- **The active server owns the sessions.**  In attachable mode, in every run in which a
    server inserts a session only while it is active or before the activation that replaces
    it lists the map: once `activateServer` of `a` has returned and while `a` stays the active
    server, every session in the map belongs to nobody or to `a`, and the check of
    `attachSession` lets `a` attach each one it does not own. -/
theorem sessions_owned_by_active (hs : ((registry true).restrict InsertsActive).Reachable s)
    {a : Nat} (ha : s.returned = some a) :
    s.active = some a ∧ ∀ r ∈ s.sessionMap,
      ((s.sessions r).server = none ∨ (s.sessions r).server = some a) ∧
      ((s.sessions r).server ≠ some a → ∀ choice,
        (Attach.detached a r).step true s choice = some (.nothing, .attach (.streams a r))) := by
  obtain ⟨hactive, howned⟩ := (registry_ownerInv hs).returned a ha
  refine ⟨hactive, ?_⟩
  intro r hr
  have hr' := howned r hr
  rw [State.Owned, hactive] at hr'
  refine ⟨hr', ?_⟩
  intro hne choice
  simp [Attach.step, hr'.resolve_right hne]

/-- Server `7` starts a session; then server `8` is activated and attaches it. -/
def reattach : List Label :=
  [Label.bus 0 7] ++ List.replicate 7 (Label.step 0 0) ++
  [Label.stream 0 7, Label.step 0 0, Label.step 0 0, Label.message 0 1 false] ++
  List.replicate 5 (Label.step 0 0) ++
  [Label.bus 1 8] ++ List.replicate 8 (Label.step 1 0) ++
  [Label.stream 1 8, Label.step 1 0, Label.step 1 0, Label.message 1 1 true] ++
  List.replicate 9 (Label.step 1 0)

theorem sessions_owned_by_active_reattached :
    ∃ s, ((registry true).restrict InsertsActive).Reachable s ∧ s.returned = some 8 ∧
      s.sessionMap = [0] ∧ s.active = some 8 ∧
      ((s.sessions 0).server = none ∨ (s.sessions 0).server = some 8) := by
  obtain ⟨s, hrun, hret, hmap⟩ : ∃ s,
      runLabels (fun s l => if InsertsActive s l then next true s l else none) start reattach =
        some s ∧ s.returned = some 8 ∧ s.sessionMap = [0] :=
    exists_of_runLabels (by decide +kernel)
  have hs := System.Reachable.of_runLabels_restrict hrun
  obtain ⟨hactive, howned⟩ := sessions_owned_by_active hs hret
  exact ⟨s, hs, hret, hmap, hactive, (howned 0 (by rw [hmap]; exact List.mem_singleton_self 0)).1⟩

/-- Server `7` has received a start message; then server `8` is activated, and `7` inserts the
    session afterwards. -/
def lateInsertion : List Label :=
  [Label.bus 0 7] ++ List.replicate 7 (Label.step 0 0) ++
  [Label.stream 0 7, Label.step 0 0, Label.step 0 0, Label.message 0 1 false] ++
  [Label.bus 1 8] ++ List.replicate 7 (Label.step 1 0) ++ [Label.step 0 0]

/-- The session belongs to the server that is no longer active. -/
theorem session_owned_by_replaced :
    ∃ s, (registry true).Reachable s ∧ s.returned = some 8 ∧ s.active = some 8 ∧
      0 ∈ s.sessionMap ∧ (s.sessions 0).server = some 7 := by
  obtain ⟨s, hrun, hret, hactive, hin, hserver⟩ : ∃ s,
      runLabels (next true) start lateInsertion = some s ∧ s.returned = some 8 ∧
      s.active = some 8 ∧ 0 ∈ s.sessionMap ∧ (s.sessions 0).server = some 7 :=
    exists_of_runLabels (by decide +kernel)
  exact ⟨s, .of_runLabels (fun _ _ _ h => h) (.init rfl) hrun, hret, hactive, hin, hserver⟩

end Session
