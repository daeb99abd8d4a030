import Tssh.Framework.System
import Mathlib.Logic.Function.Basic

/-! # Sessions of a Local UDP Forwarder

    `udpLocalForwarder` (`tssh/forward_udp.go`) keeps one session for each local client address
    in `fwdSessions`.  `handlePacket` finds the session or dials a new one, starts its consumer
    goroutine, and writes the packet; a write that fails closes the session and deletes the
    key.  `cleanupTimeout` does the same with sessions that were idle for too long.  Both hold
    the mutex.  The consumer closes its session when it ends, and some time later, when it gets
    the mutex, deletes the key.

    By then the key may stand for a newer session, which stays open outside of the map, where no
    cleanup finds it and from where the next packet dials once more.  In the runs in which this
    does not happen every open session is the one stored under its address
    (`open_sessions_stored`).
-/

open LTS

namespace LocalUdp

/-! ## The forwarder -/

/-- A consumer goroutine: in `Consume`, waiting for the mutex to delete its key, or ended. -/
inductive Consumer where
  | running
  | deleting
  | ended
  deriving DecidableEq, Repr

/-- A session with the key that its consumer captures; `opened` is whether the remote
    connection is open. -/
structure Session where
  clientKey : Nat
  lastActive : Nat
  opened : Bool
  consumer : Consumer
  deriving DecidableEq, Repr

/-- The forwarder.  `handling` is the key and the session of the `handlePacket` call that holds
    the mutex and is about to write; `now` is the clock. -/
structure State where
  fwdSessions : Nat → Option Nat
  sessions : Nat → Session
  count : Nat
  handling : Option (Nat × Nat)
  now : Nat

def start : State where
  fwdSessions := fun _ => none
  sessions := fun _ => ⟨0, 0, false, .ended⟩
  count := 0
  handling := none
  now := 0

def State.setSession (s : State) (x : Nat) (c : Session) : State :=
  { s with sessions := Function.update s.sessions x c }

/-- `delete(f.fwdSessions, key)`. -/
def State.delete (s : State) (key : Nat) : State :=
  { s with fwdSessions := Function.update s.fwdSessions key none }

/-- `session.remoteConn.Close()`. -/
def State.close (s : State) (x : Nat) : State :=
  s.setSession x { s.sessions x with opened := false }

/-- A session that was dialled for this key, stored, with its consumer started. -/
def State.dial (s : State) (key : Nat) : State :=
  { s.setSession s.count ⟨key, s.now, true, .running⟩ with
    fwdSessions := Function.update s.fwdSessions key (some s.count)
    count := s.count + 1 }

/-- `session.lastActive.Store(time.Now().Unix())`. -/
def State.touch (s : State) (x : Nat) : State :=
  s.setSession x { s.sessions x with lastActive := s.now }

/-- `handlePacket` up to the write: the session of the key, or a new one; `ok` is whether
    `DialUDP` succeeds. -/
def State.handlePacket (s : State) (key : Nat) (ok : Bool) : State :=
  match s.fwdSessions key with
  | some x => { s.touch x with handling := some (key, x) }
  | none => if ok then { (s.dial key).touch s.count with handling := some (key, s.count) } else s

/-- The rest of `handlePacket`: a write that fails closes the session and deletes the key. -/
def State.write (s : State) (key x : Nat) (ok : Bool) : State :=
  if ok then { s with handling := none }
  else ({ s with handling := none }.close x).delete key

/-- The session is in the map, where only its own key can stand for it, and was last active
    before the time. -/
def State.expired (s : State) (expireBefore x : Nat) : Bool :=
  s.fwdSessions (s.sessions x).clientKey = some x ∧ (s.sessions x).lastActive < expireBefore

/-- `cleanupTimeout`: all expired sessions are closed and deleted. -/
def State.cleanupTimeout (s : State) (expireBefore : Nat) : State :=
  { s with
    fwdSessions := fun key =>
      match s.fwdSessions key with
      | some x => if (s.sessions x).lastActive < expireBefore then none else some x
      | none => none
    sessions := fun x =>
      if s.expired expireBefore x then { s.sessions x with opened := false } else s.sessions x }

inductive Label where
  /-- A packet arrives; `dial` is whether a dial would succeed. -/
  | packet (key : Nat) (dial : Bool)
  /-- The write of the packet ends. -/
  | write (ok : Bool)
  /-- The consumer of a session gets a packet. -/
  | received (x : Nat)
  /-- `Consume` returns, and the consumer closes its session. -/
  | consumed (x : Nat)
  /-- The consumer gets the mutex and deletes its key. -/
  | delete (x : Nat)
  | cleanupTimeout (expireBefore : Nat)
  | tick
  deriving DecidableEq, Repr

def next (s : State) : Label → Option State
  | .packet key dial => enabledIf (s.handling = none) (s.handlePacket key dial)
  | .write ok =>
    match s.handling with
    | some (key, x) => some (s.write key x ok)
    | none => none
  | .received x => enabledIf (x < s.count ∧ (s.sessions x).consumer = .running) (s.touch x)
  | .consumed x =>
    enabledIf (x < s.count ∧ (s.sessions x).consumer = .running)
      (s.setSession x { s.sessions x with opened := false, consumer := .deleting })
  | .delete x =>
    enabledIf (s.handling = none ∧ x < s.count ∧ (s.sessions x).consumer = .deleting)
      ((s.setSession x { s.sessions x with consumer := .ended }).delete (s.sessions x).clientKey)
  | .cleanupTimeout expireBefore => enabledIf (s.handling = none) (s.cleanupTimeout expireBefore)
  | .tick => some { s with now := s.now + 1 }

def forwarder : System State Label := .ofStep start next

/-! ## The condition -/

/-- When a consumer deletes its key, the key stands for its own session or for none. -/
def DeletesOwn (s : State) : Label → Prop
  | .delete x =>
    s.fwdSessions (s.sessions x).clientKey = some x ∨ s.fwdSessions (s.sessions x).clientKey = none
  | _ => True

instance (s : State) (l : Label) : Decidable (DeletesOwn s l) := by
  unfold DeletesOwn
  split <;> infer_instance

/-! ## Invariant -/

variable {s s' : State} {x y key : Nat}

/-- The session is the one its key stands for. -/
def State.Stored (s : State) (x : Nat) : Prop := s.fwdSessions (s.sessions x).clientKey = some x

structure Inv (s : State) : Prop where
  opened : ∀ x, (s.sessions x).opened = true → s.Stored x
  keys : ∀ key x, s.fwdSessions key = some x → (s.sessions x).clientKey = key ∧ x < s.count
  handling : ∀ key x, s.handling = some (key, x) → s.fwdSessions key = some x
  running : ∀ x, (s.sessions x).opened = true → (s.sessions x).consumer = .running

theorem start_inv : Inv start where
  opened := fun _ h => absurd h Bool.false_ne_true
  keys := fun _ _ h => absurd h (Option.some_ne_none _).symm
  handling := fun _ _ h => absurd h (Option.some_ne_none _).symm
  running := fun _ h => absurd h Bool.false_ne_true

/-- A change of sessions that keeps the keys and opens none, with the map unchanged. -/
theorem Inv.update (h : Inv s) (hmap : s'.fwdSessions = s.fwdSessions)
    (hcount : s.count ≤ s'.count)
    (hkey : ∀ x, (s'.sessions x).clientKey = (s.sessions x).clientKey)
    (hopened : ∀ x, (s'.sessions x).opened = true →
      (s.sessions x).opened = true ∧ (s'.sessions x).consumer = (s.sessions x).consumer)
    (hhandling : ∀ key x, s'.handling = some (key, x) → s.fwdSessions key = some x) : Inv s' := by
  have hstored : ∀ x, s.Stored x → s'.Stored x := by
    intro x hx
    rw [State.Stored, hmap, hkey]
    exact hx
  refine ⟨fun x hx => hstored x (h.opened x (hopened x hx).1), ?_, ?_, ?_⟩
  · intro key x hx
    rw [hmap] at hx
    obtain ⟨hk, hlt⟩ := h.keys key x hx
    exact ⟨(hkey x).trans hk, Nat.lt_of_lt_of_le hlt hcount⟩
  · rw [hmap]
    exact hhandling
  · intro x hx
    obtain ⟨hopen, hconsumer⟩ := hopened x hx
    rw [hconsumer]
    exact h.running x hopen

theorem sessions_setSession_self {c : Session} : (s.setSession x c).sessions x = c :=
  Function.update_self ..

theorem sessions_setSession_ne {c : Session} (hne : y ≠ x) :
    (s.setSession x c).sessions y = s.sessions y := Function.update_of_ne hne ..

section

variable (h : Inv s)
include h

/-- One session changes: its key stays and it is not opened. -/
theorem Inv.setSession {c : Session} (hkey : c.clientKey = (s.sessions x).clientKey)
    (hopened : c.opened = true →
      (s.sessions x).opened = true ∧ c.consumer = (s.sessions x).consumer) :
    Inv (s.setSession x c) := by
  refine h.update rfl (Nat.le_refl _) ?_ ?_ h.handling
  · intro y
    by_cases hy : y = x
    · rw [hy, sessions_setSession_self, hkey]
    · rw [sessions_setSession_ne hy]
  · intro y hy
    by_cases hyx : y = x
    · subst hyx
      rw [sessions_setSession_self] at hy ⊢
      exact hopened hy
    · rw [sessions_setSession_ne hyx] at hy ⊢
      exact ⟨hy, rfl⟩

/-- A key is deleted that stands for no open session and is not handled. -/
theorem Inv.delete (hfree : s.handling = none)
    (hclosed : ∀ x, s.fwdSessions key = some x → (s.sessions x).opened = false) :
    Inv (s.delete key) := by
  have hself : (s.delete key).fwdSessions key = none := Function.update_self ..
  have hother : ∀ k, k ≠ key → (s.delete key).fwdSessions k = s.fwdSessions k := fun k hne =>
    Function.update_of_ne hne ..
  refine ⟨?_, ?_, ?_, ?_⟩
  · intro x hx
    have hstored := h.opened x hx
    have hne : (s.sessions x).clientKey ≠ key := by
      intro heq
      rw [State.Stored, heq] at hstored
      have hx' : (s.sessions x).opened = true := hx
      rw [hclosed x hstored] at hx'
      cases hx'
    show (s.delete key).fwdSessions (s.sessions x).clientKey = some x
    rw [hother _ hne]
    exact hstored
  · intro k x hx
    by_cases hk : k = key
    · rw [hk, hself] at hx
      cases hx
    · rw [hother k hk] at hx
      exact h.keys k x hx
  · intro k x hx
    have hx' : s.handling = some (k, x) := hx
    rw [hfree] at hx'
    cases hx'
  · exact h.running

/-! ### Steps -/

/-- A new session for a key that stands for none. -/
theorem Inv.dial (hfree : s.handling = none) (hkey : s.fwdSessions key = none) :
    Inv (s.dial key) := by
  have hmapkey : (s.dial key).fwdSessions key = some s.count := Function.update_self ..
  have hmap : ∀ k, k ≠ key → (s.dial key).fwdSessions k = s.fwdSessions k := fun k hne =>
    Function.update_of_ne hne ..
  have hnew : (s.dial key).sessions s.count = ⟨key, s.now, true, .running⟩ :=
    Function.update_self ..
  have hold : ∀ x, x ≠ s.count → (s.dial key).sessions x = s.sessions x := fun x hne =>
    Function.update_of_ne hne ..
  refine ⟨?_, ?_, ?_, ?_⟩
  · intro x hx
    by_cases hxc : x = s.count
    · subst hxc
      rw [State.Stored, hnew]
      exact hmapkey
    · rw [hold x hxc] at hx
      have hstored := h.opened x hx
      have hne : (s.sessions x).clientKey ≠ key := by
        intro heq
        rw [State.Stored, heq, hkey] at hstored
        cases hstored
      rw [State.Stored, hold x hxc, hmap _ hne]
      exact hstored
  · intro k x hx
    by_cases hk : k = key
    · subst hk
      rw [hmapkey] at hx
      obtain rfl := Option.some.inj hx
      exact ⟨by rw [hnew], Nat.lt_succ_self _⟩
    · rw [hmap k hk] at hx
      obtain ⟨hkx, hlt⟩ := h.keys k x hx
      exact ⟨by rw [hold x (by omega)]; exact hkx, Nat.lt_succ_of_lt hlt⟩
  · intro k x hx
    have hx' : s.handling = some (k, x) := hx
    rw [hfree] at hx'
    cases hx'
  · intro x hx
    by_cases hxc : x = s.count
    · rw [hxc, hnew]
    · rw [hold x hxc] at hx ⊢
      exact h.running x hx

theorem Inv.touch : Inv (s.touch x) := h.setSession rfl fun hx => ⟨hx, rfl⟩

theorem Inv.close : Inv (s.close x) :=
  h.setSession rfl fun hx => absurd hx Bool.false_ne_true

/-- The mutex is taken for a session that its key stands for. -/
theorem Inv.handle {o : Option (Nat × Nat)}
    (ho : ∀ key x, o = some (key, x) → s.fwdSessions key = some x) : Inv { s with handling := o } :=
  h.update rfl (Nat.le_refl _) (fun _ => rfl) (fun _ hx => ⟨hx, rfl⟩) ho

theorem Inv.handlePacket (hfree : s.handling = none) (ok : Bool) : Inv (s.handlePacket key ok) := by
  unfold State.handlePacket
  cases hkey : s.fwdSessions key with
  | some x =>
    refine h.touch.handle ?_
    rintro k y hky
    obtain ⟨rfl, rfl⟩ := Prod.mk.inj (Option.some.inj hky)
    exact hkey
  | none =>
    cases ok with
    | false => exact h
    | true =>
      refine (h.dial hfree hkey).touch.handle ?_
      rintro k y hky
      obtain ⟨rfl, rfl⟩ := Prod.mk.inj (Option.some.inj hky)
      exact Function.update_self ..

theorem Inv.write (hx : s.handling = some (key, x)) (ok : Bool) : Inv (s.write key x ok) := by
  have hfree : Inv { s with handling := none } :=
    h.handle fun _ _ hnone => absurd hnone (Option.some_ne_none _).symm
  unfold State.write
  cases ok with
  | true => exact hfree
  | false =>
    refine hfree.close.delete rfl ?_
    intro y hy
    -- the key stands for the session that was just closed
    have hstored : s.fwdSessions key = some y := hy
    rw [h.handling key x hx] at hstored
    obtain rfl := Option.some.inj hstored
    have hclosed : (({ s with handling := none } : State).close x).sessions x =
        { s.sessions x with opened := false } := Function.update_self ..
    rw [hclosed]

theorem Inv.cleanupTimeout (hfree : s.handling = none) (expireBefore : Nat) :
    Inv (s.cleanupTimeout expireBefore) := by
  have hkept : ∀ x, ¬ s.expired expireBefore x = true →
      (s.cleanupTimeout expireBefore).sessions x = s.sessions x := fun x hx => if_neg hx
  have hkey : ∀ x, ((s.cleanupTimeout expireBefore).sessions x).clientKey =
      (s.sessions x).clientKey := by
    intro x
    show (if s.expired expireBefore x then _ else _ : Session).clientKey = _
    split <;> rfl
  have hopen : ∀ x, ((s.cleanupTimeout expireBefore).sessions x).opened = true →
      ¬ s.expired expireBefore x = true := by
    intro x hx hexp
    have hclosed : (s.cleanupTimeout expireBefore).sessions x =
        { s.sessions x with opened := false } := if_pos hexp
    rw [hclosed] at hx
    cases hx
  refine ⟨?_, ?_, ?_, ?_⟩
  · intro x hx
    -- a session that is still open has not expired, and its key is kept
    have hexp := hopen x hx
    rw [hkept x hexp] at hx
    have hstored := h.opened x hx
    have hactive : ¬ (s.sessions x).lastActive < expireBefore := by
      intro hlt
      exact hexp (decide_eq_true ⟨hstored, hlt⟩)
    show (match s.fwdSessions _ with | some x => _ | none => _) = some x
    rw [hkey x, show s.fwdSessions (s.sessions x).clientKey = some x from hstored]
    exact if_neg hactive
  · intro k x hx
    -- keys are only deleted
    have hold : s.fwdSessions k = some x := by
      have hx' : (match s.fwdSessions k with
        | some x => if (s.sessions x).lastActive < expireBefore then none else some x
        | none => none) = some x := hx
      cases hk : s.fwdSessions k with
      | none =>
        rw [hk] at hx'
        cases hx'
      | some y =>
        rw [hk] at hx'
        simp only at hx'
        split at hx'
        · cases hx'
        · exact hx'
    rw [hkey x]
    exact h.keys k x hold
  · intro k x hx
    have hx' : s.handling = some (k, x) := hx
    rw [hfree] at hx'
    cases hx'
  · intro x hx
    have hsame := hkept x (hopen x hx)
    rw [hsame] at hx ⊢
    exact h.running x hx

/-- The consumer of a session ends, and its key stands for its session or for none. -/
theorem Inv.deleteOwn (hfree : s.handling = none) (hdeleting : (s.sessions x).consumer = .deleting)
    (hown : s.fwdSessions (s.sessions x).clientKey = some x ∨
      s.fwdSessions (s.sessions x).clientKey = none) :
    Inv ((s.setSession x { s.sessions x with consumer := .ended }).delete
      (s.sessions x).clientKey) := by
  have hclosed : (s.sessions x).opened = false := by
    by_contra hopen
    have hrunning := h.running x (by simpa using hopen)
    rw [hdeleting] at hrunning
    cases hrunning
  have hended : Inv (s.setSession x { s.sessions x with consumer := .ended }) := by
    refine h.setSession rfl fun hx => ?_
    rw [show (s.sessions x).opened = true from hx] at hclosed
    cases hclosed
  refine hended.delete hfree ?_
  intro y hy
  have hstored : s.fwdSessions (s.sessions x).clientKey = some y := hy
  rcases hown with hself | hnone
  · rw [hself] at hstored
    obtain rfl := Option.some.inj hstored
    rw [sessions_setSession_self]
    exact hclosed
  · rw [hnone] at hstored
    cases hstored

end

/-! ## Runs -/

theorem forwarder_inv (hs : (forwarder.restrict DeletesOwn).Reachable s) : Inv s := by
  refine System.invariant_restrict start_inv (fun s l s' h hok hnext => ?_) hs
  cases l with
  | packet key dial =>
    obtain ⟨hfree, rfl⟩ := enabledIf_eq_some hnext
    exact h.handlePacket hfree dial
  | write ok =>
    simp only [next] at hnext
    split at hnext
    · next key x hx =>
      obtain rfl := Option.some.inj hnext
      exact h.write hx ok
    · cases hnext
  | received x =>
    obtain ⟨_, rfl⟩ := enabledIf_eq_some hnext
    exact h.touch
  | consumed x =>
    obtain ⟨_, rfl⟩ := enabledIf_eq_some hnext
    exact h.setSession rfl fun hx => absurd hx Bool.false_ne_true
  | delete x =>
    obtain ⟨⟨hfree, _, hdeleting⟩, rfl⟩ := enabledIf_eq_some hnext
    exact h.deleteOwn hfree hdeleting hok
  | cleanupTimeout expireBefore =>
    obtain ⟨hfree, rfl⟩ := enabledIf_eq_some hnext
    exact h.cleanupTimeout hfree expireBefore
  | tick =>
    obtain rfl := Option.some.inj hnext
    exact h.update rfl (Nat.le_refl _) (fun _ => rfl) (fun _ hx => ⟨hx, rfl⟩) h.handling

/-- **Open sessions are stored.**  In every run in which no consumer deletes the key of another
    session: every session whose remote connection is open is the one its client address stands
    for, so that there is at most one for each address. -/
theorem open_sessions_stored (hs : (forwarder.restrict DeletesOwn).Reachable s) :
    (∀ x, (s.sessions x).opened = true →
      s.fwdSessions (s.sessions x).clientKey = some x) ∧
    ∀ x y, (s.sessions x).opened = true → (s.sessions y).opened = true →
      (s.sessions x).clientKey = (s.sessions y).clientKey → x = y := by
  have hinv := forwarder_inv hs
  refine ⟨hinv.opened, ?_⟩
  intro x y hx hy hkey
  have hsx : s.fwdSessions (s.sessions x).clientKey = some x := hinv.opened x hx
  have hsy : s.fwdSessions (s.sessions y).clientKey = some y := hinv.opened y hy
  rw [hkey, hsy] at hsx
  exact (Option.some.inj hsx).symm

/-- A write fails and the consumer deletes the key before the next packet comes. -/
def redialled : List Label :=
  [Label.packet 7 true, Label.write false, Label.consumed 0, Label.delete 0, Label.tick,
   Label.packet 7 true, Label.write true]

theorem open_sessions_stored_redialled :
    ∃ s, (forwarder.restrict DeletesOwn).Reachable s ∧ (s.sessions 0).opened = false ∧
      (s.sessions 1).opened = true ∧ s.fwdSessions (s.sessions 1).clientKey = some 1 := by
  obtain ⟨s, hrun, hzero, hone⟩ : ∃ s,
      runLabels (fun s l => if DeletesOwn s l then next s l else none) start redialled = some s ∧
      (s.sessions 0).opened = false ∧ (s.sessions 1).opened = true :=
    exists_of_runLabels (by decide +kernel)
  have hs := System.Reachable.of_runLabels_restrict hrun
  exact ⟨s, hs, hzero, hone, (open_sessions_stored hs).1 1 hone⟩

/-- The write of session `0` fails, the next packet dials session `1`, and only then the consumer
    of session `0` deletes the key; another packet dials session `2`. -/
def deletedLate : List Label :=
  [Label.packet 7 true, Label.write false, Label.packet 7 true, Label.write true,
   Label.consumed 0, Label.delete 0, Label.packet 7 true, Label.write true]

/-- Two sessions of one address are open; the map has the newer one only. -/
theorem open_session_not_stored :
    ∃ s, forwarder.Reachable s ∧ (s.sessions 1).opened = true ∧ (s.sessions 2).opened = true ∧
      (s.sessions 1).clientKey = 7 ∧ (s.sessions 2).clientKey = 7 ∧ s.fwdSessions 7 = some 2 := by
  obtain ⟨s, hrun, h⟩ : ∃ s, runLabels next start deletedLate = some s ∧
      (s.sessions 1).opened = true ∧ (s.sessions 2).opened = true ∧
      (s.sessions 1).clientKey = 7 ∧ (s.sessions 2).clientKey = 7 ∧ s.fwdSessions 7 = some 2 :=
    exists_of_runLabels (by decide +kernel)
  exact ⟨s, .of_runLabels (fun _ _ _ h => h) (.init rfl) hrun, h⟩

end LocalUdp
