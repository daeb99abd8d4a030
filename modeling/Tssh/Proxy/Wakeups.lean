import Tssh.Proxy.Backend

/-! # Sleeping Calls and Closed Connections of the Client Proxy

    The safety of the slot of `clientProxy` (`tsshd/proxy_client.go`) over all interleavings of
    its goroutines.

    * `no_lost_wakeup`: a call that sleeps although it could go on is about to be woken.
    * `conn_closed_once`: a connection that was in the slot is there, or is closed once by the
      goroutine that took it out.

    Both follow from one invariant (`Inv`): the mutex has one goroutine inside, each call knows
    what its tests have shown (`CallOk`), and the connections are where their history says.
-/

open LTS Go

namespace Backend

/-! ## What a call has seen

    A call goes to sleep after tests that it makes one after another.  Each of them may turn out
    wrong before the call is parked; then the goroutine that changed it has yet to broadcast. -/

namespace Call

/-- The call has found the slot empty, under the mutex. -/
def passedConn : Call → Bool
  | .testClosed _ | .testTimeout | .wait _ => true
  | _ => false

def isParked : Call → Bool
  | .parked _ => true
  | _ => false

/-- The call has found the proxy open since it locked the mutex. -/
def passedClosed : Call → Bool
  | .testTimeout | .wait _ | .parked _ => true
  | _ => false

/-- `WriteTo` has found the server not timed out since it locked the mutex. -/
def passedTimeout : Call → Bool
  | .wait .write | .parked .write => true
  | _ => false

/-- The connection the call works with. -/
def uses : Call → Option Nat
  | .io _ conn | .drop _ conn => some conn
  | _ => none

end Call

/-- The connection has been in the slot. -/
def Owner.installed : Owner → Bool
  | .unopened | .renewing => false
  | _ => true

/-- What the tests of a call read, and who changes it. -/
structure Env where
  backendConn : Option Nat
  renewal : Renewal
  closed : Bool
  closer : Closer
  timeoutFlag : Bool
  callbacks : Nat → Callback
  owner : Nat → Owner

def State.env (s : State) : Env :=
  ⟨s.backendConn, s.renewal, s.closed, s.closer, s.timeoutFlag, s.callbacks, s.owner⟩

/-- What is known while a call is at `c`. -/
structure CallOk (e : Env) (c : Call) : Prop where
  conn : c.passedConn = true → e.backendConn = none
  stored : c.isParked = true → e.backendConn ≠ none → ∃ conn, e.renewal = .broadcast conn
  shut : c.passedClosed = true → e.closed = true → e.closer = .lock ∨ e.closer = .broadcast
  late : c.passedTimeout = true → e.timeoutFlag = true →
    ∃ j, e.callbacks j = .lock ∨ e.callbacks j = .broadcast
  used : ∀ conn, c.uses = some conn → (e.owner conn).installed = true

/-- A call that is not in its inner loop and has no connection. -/
theorem CallOk.plain {e : Env} {c : Call} (hconn : c.passedConn = false)
    (hparked : c.isParked = false) (hclosed : c.passedClosed = false)
    (htimeout : c.passedTimeout = false) (huses : c.uses = none) : CallOk e c where
  conn := by simp [hconn]
  stored := by simp [hparked]
  shut := by simp [hclosed]
  late := by simp [htimeout]
  used := by simp [huses]

/-- What another goroutine does leaves a call's knowledge right where it empties the slot at
    most, and where a broadcast that is due stays due. -/
theorem CallOk.mono {e e' : Env} {c : Call} (h : CallOk e c)
    (hconn : e.backendConn = none → e'.backendConn = none)
    (hstored : (∃ conn, e.renewal = .broadcast conn) → e'.backendConn ≠ none →
      ∃ conn, e'.renewal = .broadcast conn)
    (hshut : (e.closed = true → e.closer = .lock ∨ e.closer = .broadcast) →
      e'.closed = true → e'.closer = .lock ∨ e'.closer = .broadcast)
    (hlate : (e.timeoutFlag = true → ∃ j, e.callbacks j = .lock ∨ e.callbacks j = .broadcast) →
      e'.timeoutFlag = true → ∃ j, e'.callbacks j = .lock ∨ e'.callbacks j = .broadcast)
    (howner : ∀ conn, (e.owner conn).installed = true → (e'.owner conn).installed = true) :
    CallOk e' c where
  conn := fun hc => hconn (h.conn hc)
  stored := fun hc hne => hstored (h.stored hc fun hnone => hne (hconn hnone)) hne
  shut := fun hc => hshut (h.shut hc)
  late := fun hc => hlate (h.late hc)
  used := fun conn hc => howner conn (h.used conn hc)

/-- After a broadcast the calls outside the mutex have no test behind them. -/
theorem CallOk.woken {e e' : Env} {c : Call} (h : CallOk e c) (hholds : c.holds = false)
    (howner : e'.owner = e.owner) : CallOk e' c.wake := by
  cases c with
  | testClosed kind => cases hholds
  | testTimeout => cases hholds
  | wait kind => cases hholds
  | io kind conn | drop kind conn =>
    refine ⟨nofun, nofun, nofun, nofun, fun conn' hc => ?_⟩
    rw [howner]
    exact h.used conn' hc
  | _ => exact .plain rfl rfl rfl rfl rfl

/-- A connection that was in the slot stays one. -/
theorem installed_update {owner : Nat → Owner} {conn : Nat} {o : Owner} (ho : o.installed = true)
    (c : Nat) (hc : (owner c).installed = true) :
    (Function.update owner conn o c).installed = true := by
  by_cases heq : c = conn
  · rw [heq, Function.update_self]
    exact ho
  · rw [Function.update_of_ne heq]
    exact hc

/-! ## The invariant -/

structure Inv (s : State) : Prop where
  mutex : Excludes s.backendMutex (inside s.calls s.renewal s.closer s.callbacks)
  calls : ∀ i, CallOk s.env (s.calls i)
  closed : s.closed = true ↔ s.closer ≠ .out
  owned : Owned s.backendConn (shutting s.calls s.renewal s.closer) s.renewal.carries s.opened
    s.owner s.closes
  empty : s.renewal.connecting = true → s.backendConn = none

theorem Inv.start : Inv start where
  mutex := by
    intro t
    cases t <;> simp [Backend.start, inside, Call.holds, Renewal.holds, Closer.holds,
      Callback.holds]
  calls := fun _ => .plain rfl rfl rfl rfl rfl
  closed := by simp [Backend.start]
  owned := by
    refine ⟨fun c => ?_, fun t c => ?_, fun c => ?_, fun c => ?_, fun c => ?_⟩
    · simp [Backend.start]
    · cases t <;> simp [Backend.start, shutting, Call.shuts, Renewal.shuts, Closer.shuts]
    · simp [Backend.start, Renewal.carries]
    · simp [Backend.start]
    · simp [Backend.start]
  empty := fun _ => rfl

namespace Inv

variable {s s' : State} {i : Nat}

/-! ### Moves of a call -/

variable {c : Call} {m : Option Tid} {kind : Kind} {conn : Nat} {r r' : Renewal} {t : Tid}

section

variable (h : Inv s)
include h

/-- A call changes its place, and the mutex with it. -/
theorem setCall
    (hmutex : Excludes m (Function.update (inside s.calls s.renewal s.closer s.callbacks)
      (.call i) c.holds)) (hshuts : c.shuts = (s.calls i).shuts) (hok : CallOk s.env c) :
    Inv { s.setCall i c with backendMutex := m } := by
  refine { h with mutex := ?_, calls := fun k => ?_, owned := ?_ }
  · show Excludes m (inside (Function.update s.calls i c) _ _ _)
    rw [inside_call]
    exact hmutex
  · show CallOk s.env (Function.update s.calls i c k)
    by_cases hk : k = i
    · rw [hk, Function.update_self]
      exact hok
    · rw [Function.update_of_ne hk]
      exact h.calls k
  · show Owned s.backendConn (shutting (Function.update s.calls i c) s.renewal s.closer) _ _ _ _
    have hsame : shutting (Function.update s.calls i c) s.renewal s.closer =
        shutting s.calls s.renewal s.closer := by
      rw [shutting_call, hshuts]
      exact Function.update_eq_self (Tid.call i) _
    rw [hsame]
    exact h.owned

/-- A call goes on without touching the mutex or a connection. -/
theorem goCall {c c' : Call} (hcall : s.calls i = c) (hholds : c'.holds = c.holds)
    (hshuts : c'.shuts = c.shuts) (hok : CallOk s.env c') : Inv (s.setCall i c') := by
  subst hcall
  exact h.setCall (h.mutex.stay hholds) hshuts hok

/-- A call locks the free mutex and begins its tests. -/
theorem lockCall (hfree : s.backendMutex = none) (hshuts : (s.calls i).shuts = none) :
    Inv { s.setCall i (.testConn kind) with backendMutex := some (.call i) } := by
  have hmutex := h.mutex
  rw [hfree] at hmutex
  exact h.setCall hmutex.lock hshuts.symm (.plain rfl rfl rfl rfl rfl)

/-- A call unlocks the mutex, which it holds. -/
theorem unlockCall {c c' : Call} (hcall : s.calls i = c) (hheld : c.holds = true)
    (hholds : c'.holds = false) (hshuts : c'.shuts = c.shuts) (hok : CallOk s.env c') :
    Inv { s.setCall i c' with backendMutex := none } := by
  subst hcall
  exact h.setCall (hholds ▸ h.mutex.unlock hheld) hshuts hok

/-- A call leaves for good; `readMutex` is no part of the invariant. -/
theorem finish {r : Result} (hcall : s.calls i = c) (hholds : c.holds = false)
    (hshuts : c.shuts = none) : Inv (s.finish i kind r) := by
  have hmoved : Inv (s.setCall i (.returned r)) :=
    h.goCall hcall hholds.symm hshuts.symm (.plain rfl rfl rfl rfl rfl)
  exact { hmoved with }

theorem afterFailure (hcall : s.calls i = c) (hholds : c.holds = false) (hshuts : c.shuts = none) :
    Inv (s.afterFailure i kind) := by
  cases kind with
  | read => exact h.goCall hcall hholds.symm hshuts.symm (.plain rfl rfl rfl rfl rfl)
  | write => exact h.finish hcall hholds hshuts

/-- A call takes its connection out of the slot. -/
theorem takeCall (hcall : s.calls i = .drop kind conn) (hconn : s.backendConn = some conn) :
    Inv ((s.take (.call i) conn).setCall i (.closing kind conn)) := by
  have howned := h.owned
  rw [hconn] at howned
  have hshuts : shutting s.calls s.renewal s.closer (.call i) = none := by
    show (s.calls i).shuts = none
    rw [hcall]
    rfl
  refine ⟨?_, fun k => ?_, h.closed, ?_, fun _ => rfl⟩
  · show Excludes s.backendMutex (inside (Function.update s.calls i (.closing kind conn)) _ _ _)
    rw [inside_call]
    refine h.mutex.stay ?_
    show false = (s.calls i).holds
    rw [hcall]
    rfl
  · show CallOk (s.take (.call i) conn).env (Function.update s.calls i (.closing kind conn) k)
    by_cases hk : k = i
    · rw [hk, Function.update_self]
      exact .plain rfl rfl rfl rfl rfl
    · rw [Function.update_of_ne hk]
      exact (h.calls k).mono (fun _ => rfl) (fun _ hne => absurd rfl hne) id id
        (installed_update rfl)
  · show Owned none (shutting (Function.update s.calls i (.closing kind conn)) _ _) _ _ _ _
    rw [shutting_call]
    exact howned.take hshuts

/-- A call closes the connection it took. -/
theorem closeCall (hcall : s.calls i = .closing kind conn) (hholds : c.holds = false)
    (hshuts : c.shuts = none) (hok : ∀ e, CallOk e c) : Inv ((s.closeConn conn).setCall i c) := by
  have hshutting : shutting s.calls s.renewal s.closer (.call i) = some conn := by
    show (s.calls i).shuts = some conn
    rw [hcall]
    rfl
  refine ⟨?_, fun k => ?_, h.closed, ?_, h.empty⟩
  · show Excludes s.backendMutex (inside (Function.update s.calls i c) _ _ _)
    rw [inside_call]
    refine h.mutex.stay ?_
    show c.holds = (s.calls i).holds
    rw [hcall, hholds]
    rfl
  · show CallOk (s.closeConn conn).env (Function.update s.calls i c k)
    by_cases hk : k = i
    · rw [hk, Function.update_self]
      exact hok _
    · rw [Function.update_of_ne hk]
      exact (h.calls k).mono id (fun hren _ => hren) id id (installed_update rfl)
  · show Owned s.backendConn (shutting (Function.update s.calls i c) _ _) _ _ _ _
    rw [shutting_call, hshuts]
    exact h.owned.close hshutting

theorem callStep (hstep : callStep s i = some s') : Inv s' := by
  unfold Backend.callStep at hstep
  cases hcall : s.calls i with
  | out => simp [hcall] at hstep
  | io kind conn => simp [hcall] at hstep
  | parked kind => simp [hcall] at hstep
  | returned r => simp [hcall] at hstep
  | top kind =>
    simp only [hcall] at hstep
    split at hstep
    · cases hstep
      exact h.finish hcall rfl rfl
    · cases kind <;> cases hstep <;>
        exact h.goCall hcall rfl rfl (.plain rfl rfl rfl rfl rfl)
  | timeout =>
    simp only [hcall] at hstep
    split at hstep
    · cases hstep
      exact h.finish hcall rfl rfl
    · cases hstep
      exact h.goCall hcall rfl rfl (.plain rfl rfl rfl rfl rfl)
  | load kind =>
    simp only [hcall] at hstep
    split at hstep
    · next conn hconn =>
      cases hstep
      -- the connection is in the slot, so it was installed
      refine h.goCall hcall rfl rfl ⟨nofun, nofun, nofun, nofun, ?_⟩
      intro conn' hc
      cases hc
      show (s.owner conn).installed = true
      rw [(h.owned.slot conn).mp hconn]
      rfl
    · cases hstep
      exact h.goCall hcall rfl rfl (.plain rfl rfl rfl rfl rfl)
  | drop kind conn =>
    simp only [hcall] at hstep
    split at hstep
    · next hconn =>
      cases hstep
      -- the compare-and-swap makes this call the one that closes the connection
      exact h.takeCall hcall hconn
    · cases hstep
      exact h.afterFailure hcall rfl rfl
  | closing kind conn =>
    simp only [hcall] at hstep
    cases hstep
    cases kind with
    | read => exact h.closeCall hcall rfl rfl fun _ => .plain rfl rfl rfl rfl rfl
    | write =>
      have hclosed : Inv ((s.closeConn conn).setCall i (.returned .done)) :=
        h.closeCall hcall rfl rfl fun _ => .plain rfl rfl rfl rfl rfl
      exact { hclosed with }
  | lock kind | relock kind =>
    simp only [hcall] at hstep
    obtain ⟨hfree, rfl⟩ := enabledIf_eq_some hstep
    exact h.lockCall hfree (by rw [hcall]; rfl)
  | testConn kind =>
    simp only [hcall] at hstep
    split at hstep
    · next hconn =>
      cases hstep
      -- seen under the mutex: an installation needs it too
      exact h.goCall hcall rfl rfl
        ⟨fun _ => hconn, nofun, nofun, nofun, nofun⟩
    · cases hstep
      exact h.goCall hcall rfl rfl (.plain rfl rfl rfl rfl rfl)
  | testClosed kind =>
    have hconn : s.backendConn = none := (h.calls i).conn (by rw [hcall]; rfl)
    simp only [hcall] at hstep
    split at hstep
    · cases hstep
      exact h.goCall hcall rfl rfl (.plain rfl rfl rfl rfl rfl)
    · next hopen =>
      cases kind with
      | read | write =>
        cases hstep
        -- not closed now, so a later `Close` has its broadcast still to make
        exact h.goCall hcall rfl rfl
          ⟨fun _ => hconn, nofun, fun _ hclosed => absurd hclosed hopen, nofun, nofun⟩
  | testTimeout =>
    have hconn : s.backendConn = none := (h.calls i).conn (by rw [hcall]; rfl)
    simp only [hcall] at hstep
    split at hstep
    · cases hstep
      exact h.goCall hcall rfl rfl (.plain rfl rfl rfl rfl rfl)
    · next hflag =>
      cases hstep
      -- likewise for the flag and the callback that sets it
      exact h.goCall hcall rfl rfl
        ⟨fun _ => hconn, nofun, fun _ => (h.calls i).shut (by rw [hcall]; rfl),
          fun _ htimeout => absurd htimeout hflag, nofun⟩
  | wait kind =>
    have hok := h.calls i
    rw [hcall] at hok
    simp only [hcall] at hstep
    cases hstep
    -- what was tested under the mutex still holds when `Wait` gives it up
    refine h.unlockCall hcall rfl rfl rfl
      ⟨nofun, fun _ hne => absurd (hok.conn rfl) hne, fun _ => hok.shut rfl, ?_, nofun⟩
    intro hwrite
    refine hok.late ?_
    cases kind with
    | read => cases hwrite
    | write => rfl
  | unlock kind =>
    simp only [hcall] at hstep
    cases hstep
    exact h.unlockCall hcall rfl rfl rfl (.plain rfl rfl rfl rfl rfl)

theorem ioStep {outcome : Io} (hstep : ioStep s i outcome = some s') : Inv s' := by
  unfold Backend.ioStep at hstep
  split at hstep
  · next hcall =>
    cases hstep
    exact h.finish hcall rfl rfl
  · next hcall =>
    cases hstep
    exact h.goCall hcall rfl rfl (.plain rfl rfl rfl rfl rfl)
  · next kind conn hcall =>
    cases hstep
    refine h.goCall hcall rfl rfl ⟨nofun, nofun, nofun, nofun, ?_⟩
    intro conn' hc
    refine (h.calls i).used conn' ?_
    rw [hcall]
    exact hc
  · cases hstep

/-! ### Moves of the renewal -/

/-- The renewal changes its place, and the mutex with it. -/
theorem setRenewal (hrenewal : s.renewal = r')
    (hmutex : Excludes m (Function.update (inside s.calls s.renewal s.closer s.callbacks)
      .renewal r.holds)) (hshuts : r.shuts = r'.shuts) (hcarries : r.carries = r'.carries)
    (hbroadcast : ∀ conn, r' ≠ .broadcast conn)
    (hempty : r.connecting = true → s.backendConn = none) :
    Inv { s with backendMutex := m, renewal := r } := by
  subst hrenewal
  refine { h with mutex := ?_, calls := fun k => ?_, owned := ?_, empty := hempty }
  · show Excludes m (inside s.calls r s.closer s.callbacks)
    rw [inside_renewal s.renewal]
    exact hmutex
  · exact (h.calls k).mono id (fun ⟨conn, hconn⟩ => absurd hconn (hbroadcast conn)) id id
      fun _ => id
  · show Owned s.backendConn (shutting s.calls r s.closer) r.carries _ _ _
    rw [shutting_congr hshuts rfl, hcarries]
    exact h.owned

theorem moveRenewal (hrenewal : s.renewal = r') (hholds : r.holds = r'.holds)
    (hshuts : r.shuts = r'.shuts) (hcarries : r.carries = r'.carries)
    (hbroadcast : ∀ conn, r' ≠ .broadcast conn)
    (hempty : r.connecting = true → s.backendConn = none) : Inv { s with renewal := r } := by
  subst hrenewal
  exact h.setRenewal rfl (h.mutex.stay hholds) hshuts hcarries hbroadcast hempty

/-- The renewal or `Close`, outside the mutex, takes the connection out of the slot. -/
theorem take {c : Closer} (hconn : s.backendConn = some conn)
    (ht : shutting s.calls s.renewal s.closer t = none)
    (hinside : inside s.calls r c s.callbacks = inside s.calls s.renewal s.closer s.callbacks)
    (hshutting : shutting s.calls r c =
      Function.update (shutting s.calls s.renewal s.closer) t (some conn))
    (hcarries : r.carries = s.renewal.carries) (hclosed : s.closer ≠ .out ↔ c ≠ .out)
    (hdue : s.closer = .lock ∨ s.closer = .broadcast → c = .lock ∨ c = .broadcast) :
    Inv { s.take t conn with renewal := r, closer := c } := by
  have howned := h.owned
  rw [hconn] at howned
  refine ⟨?_, fun k => ?_, h.closed.trans hclosed, ?_, fun _ => rfl⟩
  · show Excludes s.backendMutex (inside s.calls r c s.callbacks)
    rw [hinside]
    exact h.mutex
  · exact (h.calls k).mono (fun _ => rfl) (fun _ hne => absurd rfl hne)
      (fun hshut hc => hdue (hshut hc)) id (installed_update rfl)
  · show Owned none (shutting s.calls r c) r.carries _ _ _
    rw [hshutting, hcarries]
    exact howned.take ht

/-- The renewal or `Close` closes what it took. -/
theorem close {c : Closer} (ht : shutting s.calls s.renewal s.closer t = some conn)
    (hinside : inside s.calls r c s.callbacks = inside s.calls s.renewal s.closer s.callbacks)
    (hshutting : shutting s.calls r c =
      Function.update (shutting s.calls s.renewal s.closer) t none)
    (hcarries : r.carries = s.renewal.carries)
    (hbroadcast : ∀ conn, s.renewal = .broadcast conn → r = .broadcast conn)
    (hclosed : s.closer ≠ .out ↔ c ≠ .out)
    (hdue : s.closer = .lock ∨ s.closer = .broadcast → c = .lock ∨ c = .broadcast)
    (hempty : r.connecting = true → s.backendConn = none) :
    Inv { s.closeConn conn with renewal := r, closer := c } := by
  refine ⟨?_, fun k => ?_, h.closed.trans hclosed, ?_, hempty⟩
  · show Excludes s.backendMutex (inside s.calls r c s.callbacks)
    rw [hinside]
    exact h.mutex
  · exact (h.calls k).mono id (fun ⟨conn, hconn⟩ _ => ⟨conn, hbroadcast conn hconn⟩)
      (fun hshut hc => hdue (hshut hc)) id (installed_update rfl)
  · show Owned s.backendConn (shutting s.calls r c) r.carries _ _ _
    rw [hshutting, hcarries]
    exact h.owned.close ht

/-- While a goroutine is inside the mutex, no call is. -/
theorem call_outside (ht : inside s.calls s.renewal s.closer s.callbacks t = true)
    (hcall : t ≠ .call i) : (s.calls i).holds = false :=
  h.mutex.outside ht hcall.symm

theorem takeRenewal (hrenewal : s.renewal = r') (hconn : s.backendConn = some conn)
    (hholds : r.holds = r'.holds) (hnone : r'.shuts = none) (hshuts : r.shuts = some conn)
    (hcarries : r.carries = r'.carries) : Inv { s.take .renewal conn with renewal := r } := by
  subst hrenewal
  refine h.take (t := .renewal) hconn hnone (inside_congr hholds rfl) ?_ hcarries Iff.rfl id
  show shutting s.calls r s.closer = _
  rw [shutting_renewal s.renewal, hshuts]

theorem closeRenewal (hrenewal : s.renewal = r') (hshuts : r'.shuts = some conn)
    (hholds : r.holds = r'.holds) (hnone : r.shuts = none) (hcarries : r.carries = r'.carries)
    (hempty : r.connecting = true → s.backendConn = none) :
    Inv { s.closeConn conn with renewal := r } := by
  subst hrenewal
  refine h.close (t := .renewal) hshuts (inside_congr hholds rfl) ?_ hcarries ?_ Iff.rfl id hempty
  · show shutting s.calls r s.closer = _
    rw [shutting_renewal s.renewal, hnone]
  · intro conn' hb
    rw [hb] at hshuts
    cases hshuts

/-- **The store**: under the mutex, into an empty slot. -/
theorem store (hrenewal : s.renewal = .store conn) :
    Inv { s with
      backendConn := some conn
      owner := Function.update s.owner conn .slot
      renewal := .broadcast conn } := by
  have hinside : inside s.calls s.renewal s.closer s.callbacks .renewal = true := by
    show s.renewal.holds = true
    rw [hrenewal]
    rfl
  have hnone : s.backendConn = none := h.empty (by rw [hrenewal]; rfl)
  have howned := h.owned
  rw [hnone, hrenewal] at howned
  refine ⟨?_, fun k => ?_, h.closed, ?_, nofun⟩
  · show Excludes s.backendMutex (inside s.calls (.broadcast conn) s.closer s.callbacks)
    rw [inside_renewal s.renewal]
    exact h.mutex.stay hinside.symm
  · have hk := h.call_outside (i := k) hinside nofun
    refine ⟨fun hpassed => ?_, fun _ _ => ⟨conn, rfl⟩, (h.calls k).shut, (h.calls k).late,
      fun c hc => installed_update rfl c ((h.calls k).used c hc)⟩
    cases hcall : s.calls k <;> simp [hcall, Call.passedConn, Call.holds] at hpassed hk
  · show Owned (some conn) (shutting s.calls (.broadcast conn) s.closer) none _ _ _
    have hsame : shutting s.calls (.broadcast conn) s.closer =
        shutting s.calls (.store conn) s.closer := shutting_congr rfl rfl
    rw [hsame]
    exact howned.store

/-- **The broadcast** of a goroutine that is inside the mutex. -/
theorem broadcast {c : Closer} {cb : Nat → Callback}
    (ht : inside s.calls s.renewal s.closer s.callbacks t = true) (hcall : ∀ i, t ≠ .call i)
    (hinside : inside s.calls r c cb = inside s.calls s.renewal s.closer s.callbacks)
    (hshutting : shutting s.calls r c = shutting s.calls s.renewal s.closer)
    (hcarries : r.carries = s.renewal.carries) (hclosed : s.closer ≠ .out ↔ c ≠ .out)
    (hempty : r.connecting = true → s.backendConn = none) :
    Inv { s.wakeAll with renewal := r, closer := c, callbacks := cb } := by
  refine ⟨?_, fun k => ?_, h.closed.trans hclosed, ?_, hempty⟩
  · show Excludes s.backendMutex (inside (fun i => (s.calls i).wake) r c cb)
    rw [inside_wake, hinside]
    exact h.mutex
  · exact (h.calls k).woken (h.call_outside ht (hcall k)) rfl
  · show Owned s.backendConn (shutting (fun i => (s.calls i).wake) r c) r.carries _ _ _
    rw [shutting_wake, hshutting, hcarries]
    exact h.owned

theorem renewStep (hstep : renewStep s = some s') : Inv s' := by
  unfold Backend.renewStep at hstep
  cases hrenewal : s.renewal with
  | idle => simp [hrenewal] at hstep
  | connect => simp [hrenewal] at hstep
  | await conn => simp [hrenewal] at hstep
  | swap =>
    simp only [hrenewal] at hstep
    split at hstep
    · next conn hconn =>
      cases hstep
      exact h.takeRenewal hrenewal hconn rfl rfl rfl rfl
    · next hconn =>
      cases hstep
      exact h.moveRenewal hrenewal rfl rfl rfl (by simp) fun _ => hconn
  | closeOld conn =>
    simp only [hrenewal] at hstep
    cases hstep
    exact h.closeRenewal hrenewal rfl rfl rfl rfl fun _ => h.empty (by rw [hrenewal]; rfl)
  | lock conn =>
    simp only [hrenewal] at hstep
    obtain ⟨hfree, rfl⟩ := enabledIf_eq_some hstep
    have hmutex := h.mutex
    rw [hfree] at hmutex
    -- the slot stays empty: only the renewal fills it
    exact h.setRenewal hrenewal hmutex.lock rfl rfl (by simp)
      fun _ => h.empty (by rw [hrenewal]; rfl)
  | store conn =>
    simp only [hrenewal] at hstep
    cases hstep
    exact h.store hrenewal
  | broadcast conn =>
    simp only [hrenewal] at hstep
    cases hstep
    -- the calls that sleep wake up, and find the new connection
    refine h.broadcast (t := .renewal) ?_ nofun (inside_congr (by rw [hrenewal]; rfl) rfl)
      (shutting_congr (by rw [hrenewal]; rfl) rfl) (by rw [hrenewal]; rfl) Iff.rfl nofun
    show s.renewal.holds = true
    rw [hrenewal]
    rfl
  | unlock conn =>
    simp only [hrenewal] at hstep
    cases hstep
    refine h.setRenewal hrenewal (h.mutex.unlock ?_) rfl rfl (by simp) nofun
    show s.renewal.holds = true
    rw [hrenewal]
    rfl
  | drop conn =>
    simp only [hrenewal] at hstep
    split at hstep
    · next hconn =>
      cases hstep
      -- the authentication failed, and no call has taken the connection meanwhile
      exact h.takeRenewal hrenewal hconn rfl rfl rfl rfl
    · cases hstep
      exact h.moveRenewal hrenewal rfl rfl rfl (by simp) nofun
  | closeNew conn =>
    simp only [hrenewal] at hstep
    cases hstep
    exact h.closeRenewal hrenewal rfl rfl rfl rfl nofun

theorem connectStep {ok : Bool} (hstep : connectStep s ok = some s') : Inv s' := by
  obtain ⟨hrenewal, rfl⟩ := enabledIf_eq_some hstep
  cases ok with
  | false =>
    exact h.moveRenewal hrenewal rfl rfl rfl (by simp) nofun
  | true =>
    have howned := h.owned
    rw [hrenewal] at howned
    refine ⟨?_, fun k => ?_, h.closed, ?_, fun _ => h.empty (by rw [hrenewal]; rfl)⟩
    · show Excludes s.backendMutex (inside s.calls (.lock s.opened) s.closer s.callbacks)
      rw [inside_renewal s.renewal]
      refine h.mutex.stay ?_
      show false = s.renewal.holds
      rw [hrenewal]
      rfl
    · refine (h.calls k).mono id ?_ id id ?_
      · intro ⟨conn, hconn⟩
        cases hrenewal.symm.trans hconn
      · -- the connection is new, so no call has it
        intro c hc
        have hne : c ≠ s.opened := by
          rintro rfl
          rw [show s.env.owner = s.owner from rfl, (h.owned.fresh _).mp (Nat.le_refl _)] at hc
          cases hc
        show (Function.update s.owner s.opened .renewing c).installed = true
        rw [Function.update_of_ne hne]
        exact hc
    · show Owned s.backendConn (shutting s.calls (.lock s.opened) s.closer) (some s.opened) _ _ _
      have hsame : shutting s.calls (.lock s.opened) s.closer =
          shutting s.calls .connect s.closer := shutting_congr rfl rfl
      rw [hsame]
      exact howned.connect

theorem awaitStep {ok : Bool} (hstep : awaitStep s ok = some s') : Inv s' := by
  unfold Backend.awaitStep at hstep
  split at hstep
  · next conn hrenewal =>
    cases hstep
    cases ok <;> exact h.moveRenewal hrenewal rfl rfl rfl (by simp) nofun
  · cases hstep

/-! ### Moves of `Close` and of the callbacks -/

/-- `Close` goes on, and the mutex changes with it. -/
theorem setCloser {c : Closer}
    (hmutex : Excludes m (Function.update (inside s.calls s.renewal s.closer s.callbacks)
      .closer c.holds)) (hshuts : c.shuts = s.closer.shuts) (hclosed : s.closer ≠ .out ↔ c ≠ .out)
    (hdue : s.closer = .lock ∨ s.closer = .broadcast → c = .lock ∨ c = .broadcast) :
    Inv { s with backendMutex := m, closer := c } := by
  refine ⟨?_, fun k => ?_, h.closed.trans hclosed, ?_, h.empty⟩
  · show Excludes m (inside s.calls s.renewal c s.callbacks)
    rw [inside_closer s.closer]
    exact hmutex
  · exact (h.calls k).mono id (fun hren _ => hren) (fun hshut hc => hdue (hshut hc)) id fun _ => id
  · show Owned s.backendConn (shutting s.calls s.renewal c) _ _ _ _
    rw [shutting_congr rfl hshuts]
    exact h.owned

theorem closeStep (hstep : closeStep s = some s') : Inv s' := by
  unfold Backend.closeStep at hstep
  cases hcloser : s.closer with
  | out => simp [hcloser] at hstep
  | done => simp [hcloser] at hstep
  | lock =>
    simp only [hcloser] at hstep
    obtain ⟨hfree, rfl⟩ := enabledIf_eq_some hstep
    have hmutex := h.mutex
    rw [hfree] at hmutex
    exact h.setCloser hmutex.lock (by rw [hcloser]; rfl) (by simp [hcloser]) fun _ => .inr rfl
  | broadcast =>
    simp only [hcloser] at hstep
    cases hstep
    refine h.broadcast (t := .closer) ?_ nofun (inside_congr rfl (by rw [hcloser]; rfl))
      (shutting_congr rfl (by rw [hcloser]; rfl)) rfl (by simp [hcloser]) h.empty
    show s.closer.holds = true
    rw [hcloser]
    rfl
  | unlock =>
    simp only [hcloser] at hstep
    cases hstep
    refine h.setCloser (h.mutex.unlock ?_) (by rw [hcloser]; rfl) (by simp [hcloser])
      (by simp [hcloser])
    show s.closer.holds = true
    rw [hcloser]
    rfl
  | swap =>
    simp only [hcloser] at hstep
    split at hstep
    · next conn hconn =>
      cases hstep
      -- `Close` takes the connection out of the slot, and closes it later
      refine h.take (t := .closer) hconn ?_ (inside_congr rfl (by rw [hcloser]; rfl)) ?_ rfl
        (by simp [hcloser]) (by simp [hcloser])
      · show s.closer.shuts = none
        rw [hcloser]
        rfl
      · show shutting s.calls s.renewal (.closing conn) = _
        rw [shutting_closer s.closer]
        rfl
    · cases hstep
      exact h.setCloser (h.mutex.stay (by show false = s.closer.holds; rw [hcloser]; rfl))
        (by rw [hcloser]; rfl) (by simp [hcloser]) (by simp [hcloser])
  | closing conn =>
    simp only [hcloser] at hstep
    cases hstep
    -- it is the only one that has this connection to close
    refine h.close (t := .closer) ?_ (inside_congr rfl (by rw [hcloser]; rfl)) ?_ rfl
      (fun _ hb => hb) (by simp [hcloser]) (by simp [hcloser]) h.empty
    · show s.closer.shuts = some conn
      rw [hcloser]
      rfl
    · show shutting s.calls s.renewal .done = _
      rw [shutting_closer s.closer]
      rfl

/-- A callback goes on before its broadcast, and the mutex changes with it. -/
theorem setCallback {j : Nat} {c : Callback}
    (hmutex : Excludes m (Function.update (inside s.calls s.renewal s.closer s.callbacks)
      (.callback j) c.holds))
    (hdue : s.callbacks j = .lock ∨ s.callbacks j = .broadcast → c = .lock ∨ c = .broadcast) :
    Inv { s with backendMutex := m, callbacks := Function.update s.callbacks j c } := by
  refine ⟨?_, fun k => ?_, h.closed, h.owned, h.empty⟩
  · show Excludes m (inside s.calls s.renewal s.closer (Function.update s.callbacks j c))
    rw [inside_callback]
    exact hmutex
  · refine (h.calls k).mono id (fun hren _ => hren) id ?_ fun _ => id
    intro hlate hflag
    obtain ⟨j', hj'⟩ := hlate hflag
    by_cases heq : j' = j
    · subst heq
      refine ⟨j', ?_⟩
      show Function.update s.callbacks j' c j' = .lock ∨
        Function.update s.callbacks j' c j' = .broadcast
      rw [Function.update_self]
      exact hdue hj'
    · refine ⟨j', ?_⟩
      show Function.update s.callbacks j c j' = .lock ∨
        Function.update s.callbacks j c j' = .broadcast
      rw [Function.update_of_ne heq]
      exact hj'

theorem callbackStep {j : Nat} (hstep : callbackStep s j = some s') : Inv s' := by
  unfold Backend.callbackStep at hstep
  cases hcallback : s.callbacks j with
  | done => simp [hcallback] at hstep
  | lock =>
    simp only [hcallback] at hstep
    obtain ⟨hfree, rfl⟩ := enabledIf_eq_some hstep
    have hmutex := h.mutex
    rw [hfree] at hmutex
    exact h.setCallback hmutex.lock fun _ => .inr rfl
  | broadcast =>
    simp only [hcallback] at hstep
    cases hstep
    have hinside : inside s.calls s.renewal s.closer s.callbacks (.callback j) = true := by
      show (s.callbacks j).holds = true
      rw [hcallback]
      rfl
    refine h.broadcast hinside nofun ?_ rfl rfl Iff.rfl h.empty
    show inside s.calls s.renewal s.closer (Function.update s.callbacks j .unlock) = _
    rw [inside_callback, ← Function.update_eq_self (Tid.callback j)
      (inside s.calls s.renewal s.closer s.callbacks), Function.update_idem, hinside]
    rfl
  | unlock =>
    simp only [hcallback] at hstep
    cases hstep
    refine h.setCallback (h.mutex.unlock ?_) (by simp [hcallback])
    show (s.callbacks j).holds = true
    rw [hcallback]
    rfl

/-! ### All steps -/

theorem next (l : Label) (hstep : next s l = some s') : Inv s' := by
  cases l with
  | call i kind =>
    cases kind with
    | read =>
      obtain ⟨⟨hcall, -⟩, rfl⟩ := enabledIf_eq_some hstep
      have hmoved : Inv (s.setCall i (.top .read)) :=
        h.goCall hcall rfl rfl (.plain rfl rfl rfl rfl rfl)
      exact { hmoved with }
    | write =>
      obtain ⟨hcall, rfl⟩ := enabledIf_eq_some hstep
      exact h.goCall hcall rfl rfl (.plain rfl rfl rfl rfl rfl)
  | step i => exact h.callStep hstep
  | io i outcome => exact h.ioStep hstep
  | renew =>
    obtain ⟨hrenewal, rfl⟩ := enabledIf_eq_some hstep
    exact h.moveRenewal hrenewal rfl rfl rfl (by simp) nofun
  | renewStep => exact h.renewStep hstep
  | connect ok => exact h.connectStep hstep
  | await ok => exact h.awaitStep hstep
  | close =>
    obtain ⟨hopen, rfl⟩ := enabledIf_eq_some hstep
    have hout : s.closer = .out := by
      by_contra hne
      rw [h.closed.mpr hne] at hopen
      cases hopen
    have hmutex := h.mutex
    have howned := h.owned
    rw [hout] at hmutex howned
    refine ⟨?_, fun k => ?_, by simp, ?_, h.empty⟩
    · show Excludes s.backendMutex (inside s.calls s.renewal .lock s.callbacks)
      have hsame : inside s.calls s.renewal .lock s.callbacks =
          inside s.calls s.renewal .out s.callbacks := inside_congr rfl rfl
      rw [hsame]
      exact hmutex
    · exact (h.calls k).mono id (fun hren _ => hren) (fun _ _ => .inl rfl) id fun _ => id
    · show Owned s.backendConn (shutting s.calls s.renewal .lock) _ _ _ _
      have hsame : shutting s.calls s.renewal .lock = shutting s.calls s.renewal .out :=
        shutting_congr rfl rfl
      rw [hsame]
      exact howned
  | closeStep => exact h.closeStep hstep
  | timeout j =>
    obtain ⟨⟨-, hdone⟩, rfl⟩ := enabledIf_eq_some hstep
    refine ⟨?_, fun k => ?_, h.closed, h.owned, h.empty⟩
    · show Excludes s.backendMutex
        (inside s.calls s.renewal s.closer (Function.update s.callbacks j .lock))
      rw [inside_callback]
      refine h.mutex.stay ?_
      show false = (s.callbacks j).holds
      rw [hdone]
      rfl
    · refine (h.calls k).mono id (fun hren _ => hren) id (fun _ _ => ⟨j, .inl ?_⟩) fun _ => id
      exact Function.update_self j _ s.callbacks
  | recovered =>
    cases hstep
    refine ⟨h.mutex, fun k => ?_, h.closed, h.owned, h.empty⟩
    exact (h.calls k).mono id (fun hren _ => hren) id (fun _ => nofun) fun _ => id
  | callback j => exact h.callbackStep hstep

end

theorem reachable (hs : proxyRuns.Reachable s) : Inv s := by
  refine proxyRuns.invariant ?_ ?_ hs
  · intro s hinit
    rw [show s = Backend.start from hinit]
    exact .start
  · intro s l s' h hstep
    exact h.next l hstep

end Inv

/-! ## Results -/

/-- **No lost wakeup**: a call sleeps only while the slot is empty, the proxy open and, for
    `WriteTo`, the server not timed out, or the goroutine that changed this has not broadcast
    yet. -/
theorem no_lost_wakeup {s : State} (hs : proxyRuns.Reachable s) {i : Nat} {kind : Kind}
    (hparked : s.calls i = .parked kind) :
    (s.backendConn ≠ none → ∃ conn, s.renewal = .broadcast conn) ∧
      (s.closed = true → s.closer = .lock ∨ s.closer = .broadcast) ∧
      (kind = .write → s.timeoutFlag = true →
        ∃ j, s.callbacks j = .lock ∨ s.callbacks j = .broadcast) := by
  have hok := (Inv.reachable hs).calls i
  rw [hparked] at hok
  refine ⟨hok.stored rfl, hok.shut rfl, ?_⟩
  intro hwrite
  subst hwrite
  exact hok.late rfl

/-- A `ReadFrom` goes to sleep before the first connection, and `Close` begins. -/
def sleeperAtClose : List Label :=
  [.call 0 .read, .step 0, .step 0, .step 0, .step 0, .step 0, .step 0, .close]

/-- The proxy is closed while the call sleeps, and `Close` is on its way to wake it. -/
theorem sleeperAtClose_woken :
    ∃ s, proxyRuns.Reachable s ∧ s.calls 0 = .parked .read ∧ s.closed = true ∧
      (s.closer = .lock ∨ s.closer = .broadcast) := by
  obtain ⟨s, hrun, hparked, hclosed⟩ : ∃ s, runLabels next start sleeperAtClose = some s ∧
      s.calls 0 = .parked .read ∧ s.closed = true := exists_of_runLabels (by decide +kernel)
  have hs : proxyRuns.Reachable s := .of_runLabels (fun _ _ _ h => h) (.init rfl) hrun
  exact ⟨s, hs, hparked, hclosed, (no_lost_wakeup hs hparked).2.1 hclosed⟩

/-- **Closed once**: a connection that was put into the slot is still there, or one goroutine has
    taken it out and closes it next, or it was closed, once; and a renewal finds the slot empty
    when it puts its connection there. -/
theorem conn_closed_once {s : State} (hs : proxyRuns.Reachable s) (conn : Nat)
    (hopened : conn < s.opened) (hcarried : s.renewal.carries ≠ some conn) :
    let closedBy := shutting s.calls s.renewal s.closer
    ((s.backendConn = some conn ∧ s.closes conn = 0 ∧ ∀ t, closedBy t ≠ some conn) ∨
      (s.backendConn ≠ some conn ∧ s.closes conn = 0 ∧
        ∃ t, closedBy t = some conn ∧ ∀ t', closedBy t' = some conn → t' = t) ∨
      (s.backendConn ≠ some conn ∧ s.closes conn = 1 ∧ ∀ t, closedBy t ≠ some conn)) ∧
    ∀ conn', s.renewal = .store conn' → s.backendConn = none := by
  intro closedBy
  have h := Inv.reachable hs
  refine ⟨?_, fun conn' hstore => h.empty (by rw [hstore]; rfl)⟩
  have honce := h.owned.once conn
  have hslot := h.owned.slot conn
  have hclosing := fun t => h.owned.closing t conn
  cases howner : s.owner conn with
  | unopened =>
    have := (h.owned.fresh conn).mpr howner
    omega
  | renewing => exact absurd ((h.owned.renewing conn).mpr howner) hcarried
  | slot =>
    rw [howner] at honce hslot
    refine .inl ⟨hslot.mpr rfl, honce, fun t ht => ?_⟩
    cases howner.symm.trans ((hclosing t).mp ht)
  | closing t =>
    rw [howner] at honce
    refine .inr (.inl ⟨fun hconn => ?_, honce, t, (hclosing t).mpr howner, fun t' ht' => ?_⟩)
    · cases howner.symm.trans (hslot.mp hconn)
    · cases howner.symm.trans ((hclosing t').mp ht')
      rfl
  | closed =>
    rw [howner] at honce
    refine .inr (.inr ⟨fun hconn => ?_, honce, fun t ht => ?_⟩)
    · cases howner.symm.trans (hslot.mp hconn)
    · cases howner.symm.trans ((hclosing t).mp ht)

/-- A connection is stored; a `ReadFrom` fails on it and takes it out of the slot while `Close`
    is at its broadcast. -/
def failsAtClose : List Label :=
  [.renew, .renewStep, .connect true, .renewStep, .renewStep, .renewStep, .renewStep, .await true,
   .call 0 .read, .step 0, .step 0, .close, .closeStep, .io 0 .failed, .step 0]

/-- The call is the one that closes the connection. -/
theorem failsAtClose_closed_once :
    ∃ s, proxyRuns.Reachable s ∧ s.calls 0 = .closing .read 0 ∧ s.closer = .broadcast ∧
      ∀ t, shutting s.calls s.renewal s.closer t = some 0 → t = .call 0 := by
  obtain ⟨s, hrun, hcall, hcloser, hopened, hcarried⟩ : ∃ s,
      runLabels next start failsAtClose = some s ∧ s.calls 0 = .closing .read 0 ∧
        s.closer = .broadcast ∧ 0 < s.opened ∧ s.renewal.carries ≠ some 0 :=
    exists_of_runLabels (by decide +kernel)
  have hs : proxyRuns.Reachable s := .of_runLabels (fun _ _ _ h => h) (.init rfl) hrun
  have hclosing : shutting s.calls s.renewal s.closer (.call 0) = some 0 := by
    show (s.calls 0).shuts = some 0
    rw [hcall]
    rfl
  refine ⟨s, hs, hcall, hcloser, ?_⟩
  rcases (conn_closed_once hs 0 hopened hcarried).1 with h | h | h
  · exact absurd hclosing (h.2.2 _)
  · obtain ⟨-, -, t, -, honly⟩ := h
    intro t' ht'
    rw [honly t' ht', honly _ hclosing]
  · exact absurd hclosing (h.2.2 _)

end Backend
