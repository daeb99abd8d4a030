import Tssh.Session.Registry

/-! # Closed Sessions and the Session Map

    `sessionMap` is used as the set of the sessions that are open: an empty map counts as "no
    active sessions", the map is the list offered for attaching, and `attachSession` looks
    the session up in it.  Sessions are closed on two kinds of paths:

    * `closeSession` and `closeAllSessions` first remove a session and then close it;
    * `handleSessionEvent` closes a session whose program ended, failed to start or could not
      be acknowledged, and leaves it in the map.

    The map holds exactly the open sessions in the runs in which the second kind of path
    finds its session already removed.
-/

open LTS

namespace Session

variable {attachable : Bool} {s s' : State} {l : Label} {g r : Nat} {e : Effect} {q q' : Routine}

/-! ## Which steps change the map -/

/-- The sessions that a goroutine has removed and not yet closed. -/
def Routine.removed : Routine → List Nat
  | .closing sessions => sessions
  | _ => []

/-- Effects on the map or on the `closed` flag of a session. -/
def Effect.onMap : Effect → Bool
  | .insert _ _ | .close _ | .delete _ | .clear => true
  | _ => false

/-- What a step means for the map. -/
inductive MapChange (s : State) (q : Routine) : Effect → Routine → Prop where
  | none {e : Effect} {q' : Routine} :
      e.onMap = false → q.removed = [] → q'.removed = [] → MapChange s q e q'
  | inserted {server id : Nat} {q' : Routine} :
      s.find id = none → q.removed = [] → q'.removed = [] → MapChange s q (.insert server id) q'
  | ended {r : Nat} {q' : Routine} :
      q = .handle (.ended r) → q'.removed = [] → MapChange s q (.close r) q'
  | closed {r : Nat} {q' : Routine} :
      (∀ r', r' ∈ q.removed ↔ r' = r ∨ r' ∈ q'.removed) → MapChange s q (.close r) q'
  | deleted {id r : Nat} {q' : Routine} :
      s.find id = some r → q.removed = [] → q'.removed = [r] → MapChange s q (.delete id) q'
  | cleared {q' : Routine} :
      q.removed = [] → q'.removed = s.sessionMap → MapChange s q .clear q'

theorem Handler.mapChange {h : Handler} {choice : Nat} (hs : h.step s choice = some (e, q')) :
    MapChange s (.handle h) e q' := by
  cases h with
  | message server => cases hs
  | create server id =>
    simp only [Handler.step] at hs
    split at hs
    · next hfree =>
      cases hs
      exact .inserted hfree.2 rfl rfl
    · cases hs
      exact .none rfl rfl rfl
  | ended r =>
    cases hs
    exact .ended rfl rfl
  | serving server | active server =>
    simp only [Handler.step] at hs
    split at hs <;> cases hs <;> exact .none rfl rfl rfl
  | start r | ack r | forwardIn r | forwardErr r | wait r =>
    cases hs
    exact .none rfl rfl rfl

theorem Attach.mapChange {a : Attach} {choice : Nat}
    (hs : a.step attachable s choice = some (e, q')) : MapChange s (.attach a) e q' := by
  cases a with
  | lookup server id | closed server r | lock server r =>
    simp only [Attach.step] at hs
    split at hs <;> cases hs <;> exact .none rfl rfl rfl
  | active server r | detached server r | streams server r | ack server r | store server r
    | unlock =>
    cases hs
    exact .none rfl rfl rfl

theorem Activate.mapChange {a : Activate} {choice : Nat}
    (hs : a.step attachable s choice = some (e, q')) : MapChange s (.activate a) e q' := by
  cases a with
  | lock server =>
    simp only [Activate.step] at hs
    split at hs <;> split at hs <;> cases hs <;> exact .none rfl rfl rfl
  | busClosing server =>
    simp only [Activate.step] at hs
    split at hs <;> cases hs <;> exact .none rfl rfl rfl
  | detach server sessions =>
    simp only [Activate.step] at hs
    split at hs
    · cases hs
      exact .none rfl rfl rfl
    · split at hs <;> cases hs
      exact .none rfl rfl rfl
  | swap server | list server old | serve server | unlock server =>
    cases hs
    exact .none rfl rfl rfl

/-- Every goroutine step is one of the changes. -/
theorem Routine.mapChange {choice : Nat} (hs : q.step attachable s choice = some (e, q')) :
    MapChange s q e q' := by
  cases q with
  | idle => cases hs
  | handle h => exact Handler.mapChange hs
  | attach a => exact Attach.mapChange hs
  | activate a => exact Activate.mapChange hs
  | closeAll =>
    cases hs
    exact .cleared rfl rfl
  | exit id =>
    simp only [Routine.step] at hs
    split at hs
    · next r hr =>
      cases hs
      exact .deleted hr rfl rfl
    · cases hs
      exact .none rfl rfl rfl
  | closing sessions =>
    simp only [Routine.step] at hs
    split at hs
    · next hnil =>
      cases hs
      exact .none rfl hnil rfl
    · split at hs <;> cases hs
      next r hr => exact .closed (mem_eraseIdx_or hr)

/-! ## The invariant -/

/-- Sessions in the map are open; sessions outside it are closed, or a goroutine that removed
    them is about to close them. -/
structure MapInv (s : State) : Prop where
  created : ∀ r ∈ s.sessionMap, r < s.count
  unique : ∀ r ∈ s.sessionMap, ∀ r' ∈ s.sessionMap, (s.sessions r).id = (s.sessions r').id → r = r'
  live : ∀ r ∈ s.sessionMap, (s.sessions r).closed = false
  removed : ∀ g, ∀ r ∈ (s.routines g).removed, r < s.count ∧ r ∉ s.sessionMap
  accounted : ∀ r, r < s.count →
    (s.sessions r).closed = true ∨ r ∈ s.sessionMap ∨ ∃ g, r ∈ (s.routines g).removed

theorem start_mapInv : MapInv start where
  created := fun _ hr => absurd hr List.not_mem_nil
  unique := fun _ hr => absurd hr List.not_mem_nil
  live := fun _ hr => absurd hr List.not_mem_nil
  removed := fun _ _ hr => absurd hr List.not_mem_nil
  accounted := fun r hr => absurd hr (Nat.not_lt_zero r)

/-- What is removed after the step of `g`, for each goroutine. -/
theorem removed_setRoutine (g' : Nat) :
    (((e.apply s g).setRoutine g q').routines g').removed =
      if g' = g then q'.removed else (s.routines g').removed := by
  by_cases hg : g' = g
  · rw [if_pos hg, hg, setRoutine_self]
  · rw [if_neg hg, setRoutine_ne hg, apply_routines]

/-- A step that does not change which sessions are removed. -/
theorem removed_eq (hq : q'.removed = (s.routines g).removed) (g' : Nat) :
    (((e.apply s g).setRoutine g q').routines g').removed = (s.routines g').removed := by
  rw [removed_setRoutine]
  split
  · next hg => rw [hq, hg]
  · rfl

/-- Effects that are not on the map. -/
theorem apply_not_onMap (he : e.onMap = false) :
    (e.apply s g).sessionMap = s.sessionMap ∧ (e.apply s g).count = s.count ∧
      ∀ r, ((e.apply s g).sessions r).id = (s.sessions r).id ∧
        ((e.apply s g).sessions r).closed = (s.sessions r).closed := by
  have hset : ∀ r c, c.id = (s.sessions r).id → c.closed = (s.sessions r).closed → ∀ r',
      ((s.setSession r c).sessions r').id = (s.sessions r').id ∧
        ((s.setSession r c).sessions r').closed = (s.sessions r').closed := by
    intro r c hid hclosed r'
    by_cases hr : r' = r
    · simp [State.setSession, hr, hid, hclosed]
    · simp [State.setSession, hr]
  cases e with
  | insert | close | delete | clear => cases he
  | setIoStream r | setErrStream r | setServer r server => exact ⟨rfl, rfl, hset r _ rfl rfl⟩
  | nothing | lock | unlock | swap | serve | finish => exact ⟨rfl, rfl, fun _ => ⟨rfl, rfl⟩⟩

theorem MapInv.unchanged (h : MapInv s) (he : e.onMap = false)
    (hq : q'.removed = (s.routines g).removed) : MapInv ((e.apply s g).setRoutine g q') := by
  obtain ⟨hmap, hcount, hsess⟩ := apply_not_onMap (s := s) (g := g) he
  constructor
  · intro r hr
    show r < (e.apply s g).count
    rw [hcount]
    exact h.created r (hmap ▸ hr)
  · intro r hr r' hr' hid
    have hid' : (s.sessions r).id = (s.sessions r').id := by
      rw [← (hsess r).1, ← (hsess r').1]
      exact hid
    exact h.unique r (hmap ▸ hr) r' (hmap ▸ hr') hid'
  · intro r hr
    show ((e.apply s g).sessions r).closed = false
    rw [(hsess r).2]
    exact h.live r (hmap ▸ hr)
  · intro g' r hr
    rw [removed_eq hq] at hr
    show r < (e.apply s g).count ∧ r ∉ (e.apply s g).sessionMap
    rw [hcount, hmap]
    exact h.removed g' r hr
  · intro r hr
    show ((e.apply s g).sessions r).closed = true ∨ r ∈ (e.apply s g).sessionMap ∨ _
    simp only [removed_eq hq]
    rw [(hsess r).2, hmap]
    exact h.accounted r (hcount ▸ hr)

theorem find_eq_none {id : Nat} (h : s.find id = none) (hr : r ∈ s.sessionMap) :
    (s.sessions r).id ≠ id := by
  have hnone := List.find?_eq_none.mp h r hr
  simpa using hnone

theorem MapInv.inserted (h : MapInv s) {server id : Nat} (hid : s.find id = none)
    (hq : q'.removed = (s.routines g).removed) :
    MapInv (((Effect.insert server id).apply s g).setRoutine g q') := by
  -- the new session is `s.count`; all others are older
  have hnew : (((Effect.insert server id).apply s g).sessions s.count) =
      ⟨id, some server, false, false, false⟩ := by
    simp [Effect.apply, State.setSession]
  have hold : ∀ r, r < s.count →
      ((Effect.insert server id).apply s g).sessions r = s.sessions r := by
    intro r hr
    simp [Effect.apply, State.setSession, Nat.ne_of_lt hr]
  have hmem : ∀ r, r ∈ ((Effect.insert server id).apply s g).sessionMap ↔
      r ∈ s.sessionMap ∨ r = s.count := by
    intro r
    simp [Effect.apply]
  constructor
  · intro r hr
    show r < s.count + 1
    rcases (hmem r).mp hr with hr | hr
    · have := h.created r hr
      omega
    · omega
  · intro r hr r' hr' heq
    have heq' : (((Effect.insert server id).apply s g).sessions r).id =
      (((Effect.insert server id).apply s g).sessions r').id := heq
    rcases (hmem r).mp hr with hr | rfl
    · rw [hold r (h.created r hr)] at heq'
      rcases (hmem r').mp hr' with hr' | rfl
      · rw [hold r' (h.created r' hr')] at heq'
        exact h.unique r hr r' hr' heq'
      · rw [hnew] at heq'
        exact absurd heq' (find_eq_none hid hr)
    · rcases (hmem r').mp hr' with hr' | hr'
      · rw [hnew, hold r' (h.created r' hr')] at heq'
        exact absurd heq'.symm (find_eq_none hid hr')
      · exact hr'.symm
  · intro r hr
    show (((Effect.insert server id).apply s g).sessions r).closed = false
    rcases (hmem r).mp hr with hr | rfl
    · rw [hold r (h.created r hr)]
      exact h.live r hr
    · rw [hnew]
  · intro g' r hr
    rw [removed_eq hq] at hr
    obtain ⟨hlt, hnot⟩ := h.removed g' r hr
    refine ⟨Nat.lt_succ_of_lt hlt, ?_⟩
    intro hin
    rcases (hmem r).mp hin with hin | hin
    · exact hnot hin
    · omega
  · intro r hr
    rcases Nat.lt_succ_iff_lt_or_eq.mp hr with hr | rfl
    · show (((Effect.insert server id).apply s g).sessions r).closed = true ∨ _
      rw [hold r hr]
      rcases h.accounted r hr with hclosed | hin | ⟨g', hg'⟩
      · exact .inl hclosed
      · exact .inr (.inl ((hmem r).mpr (.inl hin)))
      · exact .inr (.inr ⟨g', by rwa [removed_eq hq]⟩)
    · exact .inr (.inl ((hmem _).mpr (.inr rfl)))

/-- Closing a session that is not in the map. -/
theorem MapInv.closed (h : MapInv s) (hr : r ∉ s.sessionMap)
    (hsub : ∀ r' ∈ q'.removed, r' ∈ (s.routines g).removed)
    (hleft : ∀ r' ∈ (s.routines g).removed, r' = r ∨ r' ∈ q'.removed) :
    MapInv (((Effect.close r).apply s g).setRoutine g q') := by
  have hsame : ∀ r', r' ≠ r → ((Effect.close r).apply s g).sessions r' = s.sessions r' := by
    intro r' hne
    simp [Effect.apply, State.setSession, hne]
  have hne : ∀ r' ∈ s.sessionMap, r' ≠ r := by
    intro r' hr' heq
    exact hr (heq ▸ hr')
  constructor
  · exact h.created
  · intro r₁ h₁ r₂ h₂ hid
    have hid' : (((Effect.close r).apply s g).sessions r₁).id =
      (((Effect.close r).apply s g).sessions r₂).id := hid
    rw [hsame r₁ (hne r₁ h₁), hsame r₂ (hne r₂ h₂)] at hid'
    exact h.unique r₁ h₁ r₂ h₂ hid'
  · intro r' hr'
    show (((Effect.close r).apply s g).sessions r').closed = false
    rw [hsame r' (hne r' hr')]
    exact h.live r' hr'
  · intro g' r' hr'
    rw [removed_setRoutine] at hr'
    split at hr'
    · exact h.removed g r' (hsub r' hr')
    · exact h.removed g' r' hr'
  · intro r' hr'
    show (((Effect.close r).apply s g).sessions r').closed = true ∨ _
    by_cases heq : r' = r
    · left
      simp [Effect.apply, State.setSession, heq]
    · rw [hsame r' heq]
      rcases h.accounted r' hr' with hclosed | hin | ⟨g', hg'⟩
      · exact .inl hclosed
      · exact .inr (.inl hin)
      · refine .inr (.inr ⟨g', ?_⟩)
        rw [removed_setRoutine]
        split
        · next hg =>
          subst hg
          exact (hleft r' hg').resolve_left heq
        · exact hg'

/-- Moving sessions from the map into the hands of the goroutine that will close them. -/
theorem MapInv.removes (h : MapInv s) (hsess : (e.apply s g).sessions = s.sessions)
    (hcount : (e.apply s g).count = s.count) (hq : (s.routines g).removed = [])
    (hsplit : ∀ r, r ∈ s.sessionMap ↔ r ∈ (e.apply s g).sessionMap ∨ r ∈ q'.removed)
    (hdisj : ∀ r ∈ q'.removed, r ∉ (e.apply s g).sessionMap) :
    MapInv ((e.apply s g).setRoutine g q') := by
  have hsub : ∀ r, r ∈ (e.apply s g).sessionMap → r ∈ s.sessionMap := by
    intro r hr
    exact (hsplit r).mpr (.inl hr)
  constructor
  · intro r hr
    show r < (e.apply s g).count
    rw [hcount]
    exact h.created r (hsub r hr)
  · intro r hr r' hr' hid
    have hid' : ((e.apply s g).sessions r).id = ((e.apply s g).sessions r').id := hid
    rw [hsess] at hid'
    exact h.unique r (hsub r hr) r' (hsub r' hr') hid'
  · intro r hr
    show ((e.apply s g).sessions r).closed = false
    rw [hsess]
    exact h.live r (hsub r hr)
  · intro g' r hr
    show r < (e.apply s g).count ∧ r ∉ (e.apply s g).sessionMap
    rw [hcount]
    rw [removed_setRoutine] at hr
    split at hr
    · exact ⟨h.created r ((hsplit r).mpr (.inr hr)), hdisj r hr⟩
    · obtain ⟨hlt, hnot⟩ := h.removed g' r hr
      exact ⟨hlt, fun hin => hnot (hsub r hin)⟩
  · intro r hr
    show ((e.apply s g).sessions r).closed = true ∨ _
    rw [hsess]
    rcases h.accounted r (hcount ▸ hr) with hclosed | hin | ⟨g', hg'⟩
    · exact .inl hclosed
    · rcases (hsplit r).mp hin with hin | hin
      · exact .inr (.inl hin)
      · exact .inr (.inr ⟨g, by rwa [setRoutine_self]⟩)
    · refine .inr (.inr ⟨g', ?_⟩)
      have hne : g' ≠ g := by
        rintro rfl
        rw [hq] at hg'
        cases hg'
      rwa [removed_setRoutine, if_neg hne]

/-! ## Runs that close only removed sessions -/

/-- `handleSessionEvent` calls `Close` only on a session that is no longer in the map. -/
def ClosesRemoved (s : State) : Label → Prop
  | .step g _ =>
    match s.routines g with
    | .handle (.ended r) => r ∉ s.sessionMap
    | _ => True
  | _ => True

instance (s : State) (l : Label) : Decidable (ClosesRemoved s l) := by
  unfold ClosesRemoved
  split
  · split <;> infer_instance
  · infer_instance

theorem find_eq_some {id : Nat} (h : s.find id = some r) :
    r ∈ s.sessionMap ∧ (s.sessions r).id = id := by
  have hid := List.find?_some h
  exact ⟨List.mem_of_find?_eq_some h, by simpa using hid⟩

/-- **Step lemma**: every change keeps the invariant. -/
theorem MapInv.change (h : MapInv s) (hc : MapChange s (s.routines g) e q')
    (hok : ∀ r, s.routines g = .handle (.ended r) → r ∉ s.sessionMap) :
    MapInv ((e.apply s g).setRoutine g q') := by
  cases hc with
  | none he hq hq' => exact h.unchanged he (hq'.trans hq.symm)
  | inserted hid hq hq' => exact h.inserted hid (hq'.trans hq.symm)
  | ended hq hq' =>
    apply h.closed (hok _ hq)
    · rw [hq']
      exact fun r' hr' => absurd hr' List.not_mem_nil
    · rw [hq]
      exact fun r' hr' => absurd hr' List.not_mem_nil
  | closed hq =>
    apply h.closed (h.removed g _ ((hq _).mpr (.inl rfl))).2
    · exact fun r' hr' => (hq r').mpr (.inr hr')
    · exact fun r' hr' => (hq r').mp hr'
  | @deleted id r _ hfind hq hq' =>
    -- no other session of the map has this id
    obtain ⟨hin, hid⟩ := find_eq_some hfind
    apply h.removes rfl rfl hq
    · intro r'
      rw [hq', List.mem_singleton]
      constructor
      · intro hr'
        by_cases hid' : (s.sessions r').id = id
        · exact .inr (h.unique r' hr' r hin (hid'.trans hid.symm))
        · exact .inl (List.mem_filter.mpr ⟨hr', by simpa using hid'⟩)
      · rintro (hr' | rfl)
        · exact (List.mem_filter.mp hr').1
        · exact hin
    · intro r' hr' hin'
      rw [hq', List.mem_singleton] at hr'
      have hkept := (List.mem_filter.mp hin').2
      simp [hr', hid] at hkept
  | cleared hq hq' =>
    apply h.removes rfl rfl hq
    · intro r'
      rw [hq']
      exact ⟨.inr, fun hr' => hr'.resolve_left List.not_mem_nil⟩
    · exact fun r' _ => List.not_mem_nil

/-- **Run lemma**. -/
theorem registry_mapInv (hs : ((registry attachable).restrict ClosesRemoved).Reachable s) :
    MapInv s := by
  refine System.invariant_restrict start_mapInv (fun s l s' h hok hstep => ?_) hs
  obtain ⟨g, e, q', rfl, hmove⟩ := next_cases hstep
  rcases hmove with ⟨choice, rfl, hq⟩ | ⟨rfl, hwait, hentry⟩
  · apply h.change (Routine.mapChange hq)
    intro r hr
    simpa [ClosesRemoved, hr] using hok
  · apply h.unchanged rfl
    have hq : (s.routines g).removed = [] := by
      cases hr : s.routines g with
      | closing sessions =>
        rw [hr] at hwait
        cases hwait
      | _ => rfl
    rw [hq]
    cases q' with
    | closing sessions => cases hentry
    | _ => rfl

/-- The session list offered for attaching: the ids that `handleInfoRequest` reports. -/
def handleInfoRequest (s : State) : List Nat := s.sessionMap.map fun r => (s.sessions r).id

/-- A created session that is neither closed nor about to be closed after its removal. -/
def State.IsOpen (s : State) (r : Nat) : Prop :=
  r < s.count ∧ (s.sessions r).closed = false ∧ ∀ g, r ∉ (s.routines g).removed

/-- **The map holds exactly the open sessions**, in every run in which `handleSessionEvent`
    closes only sessions that were removed before: a closed session is not in the map, and a
    session is in the map exactly if it is open, so that the sessions offered for attaching
    are the open ones. -/
theorem sessionMap_holds_open
    (hs : ((registry attachable).restrict ClosesRemoved).Reachable s) :
    (∀ r, (s.sessions r).closed = true → r ∉ s.sessionMap) ∧
    (∀ r, r ∈ s.sessionMap ↔ s.IsOpen r) ∧
    ∀ id, id ∈ handleInfoRequest s ↔ ∃ r, s.IsOpen r ∧ (s.sessions r).id = id := by
  have h := registry_mapInv hs
  have hopen : ∀ r, r ∈ s.sessionMap ↔ s.IsOpen r := by
    intro r
    constructor
    · intro hr
      exact ⟨h.created r hr, h.live r hr, fun g hg => (h.removed g r hg).2 hr⟩
    · rintro ⟨hlt, hclosed, hremoved⟩
      rcases h.accounted r hlt with hc | hin | ⟨g, hg⟩
      · rw [hclosed] at hc
        cases hc
      · exact hin
      · exact absurd hg (hremoved g)
  refine ⟨?_, hopen, ?_⟩
  · intro r hclosed hr
    rw [h.live r hr] at hclosed
    cases hclosed
  · intro id
    simp only [handleInfoRequest, List.mem_map, hopen]

/-- The client starts two sessions and asks for the first one to be closed; its program ends
    afterwards. -/
def exitRequest : List Label :=
  [Label.bus 0 7] ++ List.replicate 7 (Label.step 0 0) ++
  [Label.stream 0 7, Label.step 0 0, Label.step 0 0, Label.message 0 1 false] ++
  List.replicate 5 (Label.step 0 0) ++
  [Label.stream 1 7, Label.step 1 0, Label.step 1 0, Label.message 1 2 false] ++
  List.replicate 5 (Label.step 1 0) ++
  [Label.exit 2 1, Label.step 2 0, Label.step 2 0, Label.step 0 0, Label.step 0 0]

theorem sessionMap_holds_open_after_exit :
    ∃ s, ((registry true).restrict ClosesRemoved).Reachable s ∧ s.count = 2 ∧
      (s.sessions 0).closed = true ∧ 0 ∉ s.sessionMap ∧ s.IsOpen 1 := by
  obtain ⟨s, hrun, hcount, hclosed, hin⟩ : ∃ s,
      runLabels (fun s l => if ClosesRemoved s l then next true s l else none) start exitRequest =
        some s ∧ s.count = 2 ∧ (s.sessions 0).closed = true ∧ 1 ∈ s.sessionMap :=
    exists_of_runLabels (by decide +kernel)
  have hs := System.Reachable.of_runLabels_restrict hrun
  obtain ⟨hnot, hopen, _⟩ := sessionMap_holds_open hs
  exact ⟨s, hs, hcount, hclosed, hnot 0 hclosed, (hopen 1).mp hin⟩

/-- The program of a session ends by itself. -/
def naturalExit : List Label :=
  [Label.bus 0 7] ++ List.replicate 7 (Label.step 0 0) ++
  [Label.stream 0 7, Label.step 0 0, Label.step 0 0, Label.message 0 1 false] ++
  List.replicate 7 (Label.step 0 0)

/-- The session is closed and still in the map. -/
theorem sessionMap_keeps_ended :
    ∃ s, (registry true).Reachable s ∧ (s.sessions 0).closed = true ∧ 0 ∈ s.sessionMap ∧
      handleInfoRequest s = [1] := by
  obtain ⟨s, hrun, hclosed, hin, hinfo⟩ : ∃ s, runLabels (next true) start naturalExit = some s ∧
      (s.sessions 0).closed = true ∧ 0 ∈ s.sessionMap ∧ handleInfoRequest s = [1] :=
    exists_of_runLabels (by decide +kernel)
  exact ⟨s, .of_runLabels (fun _ _ _ h => h) (.init rfl) hrun, hclosed, hin, hinfo⟩

end Session
