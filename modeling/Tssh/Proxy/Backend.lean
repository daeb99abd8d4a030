import Mathlib.Logic.Function.Basic
import Tssh.Framework.Place
import Tssh.Framework.System

/-! # The Backend Connection of the Client Proxy

    `clientProxy` of `tsshd/proxy_client.go` has one slot for the connection to the server
    (`backendConn`).  `renewTransportPath` empties it, connects again and fills it; `ReadFrom` and
    `WriteTo` use what they find there, empty the slot when that fails, and wait on a condition
    variable when there is nothing; `Close` empties it for good.  The slot is changed by atomic
    operations, with and without the mutex of the condition variable.

    * **Model**: one step for each atomic operation, test, `Lock`, `Unlock`, `Wait` and
      `Broadcast` of these functions and of the callback that `startClientProxy` registers for
      timeouts.  `Wait` unlocks and parks in one step, as `sync.Cond` does.
    * **Calls**: any number of `ReadFrom` and `WriteTo` calls.  Calls of `ReadFrom` are serialized
      by `readMutex`, those of `renewTransportPath` by `renewMutex`: a call that waits for either
      has not begun.
    * `Owned`: what has become of each connection, as the slot and the goroutines show it; one
      lemma for each way in which a connection moves.

    The results are in `Tssh.Proxy.Wakeups`.
-/

namespace Backend

open LTS Go

/-! ## Model -/

inductive Kind where
  | read
  | write
  deriving DecidableEq, Repr

inductive Result where
  /-- `io.EOF`. -/
  | eof
  /-- The packet went to the cache. -/
  | cached
  /-- A packet was read, or given to a connection. -/
  | done
  deriving DecidableEq, Repr

/-- Where a call of `ReadFrom` or `WriteTo` is: what it does next. -/
inductive Call where
  | out
  /-- `p.closed.Load()` at the top of the loop. -/
  | top (kind : Kind)
  /-- `p.serverChecker.isTimeout()` of `WriteTo`. -/
  | timeout
  /-- `p.backendConn.Load()`. -/
  | load (kind : Kind)
  /-- `conn.Read(buf)` or `conn.Write(buf)`. -/
  | io (kind : Kind) (conn : Nat)
  /-- `p.backendConn.CompareAndSwap(conn, nil)`. -/
  | drop (kind : Kind) (conn : Nat)
  /-- `conn.Close()`. -/
  | closing (kind : Kind) (conn : Nat)
  | lock (kind : Kind)
  /-- The three tests of the inner loop, under the mutex. -/
  | testConn (kind : Kind)
  | testClosed (kind : Kind)
  | testTimeout
  /-- `p.backendCond.Wait()`. -/
  | wait (kind : Kind)
  | parked (kind : Kind)
  /-- Woken, it locks the mutex again. -/
  | relock (kind : Kind)
  | unlock (kind : Kind)
  | returned (r : Result)
  deriving DecidableEq, Repr

/-- Where `renewTransportPath` is. -/
inductive Renewal where
  | idle
  /-- `p.backendConn.Swap(nil)`. -/
  | swap
  | closeOld (conn : Nat)
  /-- `renewTcpPath` or `renewUdpPath`. -/
  | connect
  | lock (conn : Nat)
  | store (conn : Nat)
  | broadcast (conn : Nat)
  | unlock (conn : Nat)
  /-- `sendPacketCache` and `waitReconnect`. -/
  | await (conn : Nat)
  /-- `p.backendConn.CompareAndSwap(conn, nil)`. -/
  | drop (conn : Nat)
  | closeNew (conn : Nat)
  deriving DecidableEq, Repr

/-- Where the call of `Close` is that has set `closed`; the other calls return at once. -/
inductive Closer where
  | out
  | lock
  | broadcast
  | unlock
  /-- `p.backendConn.Swap(nil)`. -/
  | swap
  | closing (conn : Nat)
  | done
  deriving DecidableEq, Repr

/-- Where a callback of a timeout is. -/
inductive Callback where
  | lock
  | broadcast
  | unlock
  | done
  deriving DecidableEq, Repr

/-- The goroutines that lock `backendMutex` or close connections. -/
inductive Tid where
  | call (i : Nat)
  | renewal
  | closer
  | callback (j : Nat)
  deriving DecidableEq, Repr

/-- What has become of a connection. -/
inductive Owner where
  | unopened
  /-- Connected, and not in the slot yet. -/
  | renewing
  | slot
  /-- Taken out of the slot by a goroutine that closes it next. -/
  | closing (t : Tid)
  | closed
  deriving DecidableEq, Repr

structure State where
  closed : Bool
  timeoutFlag : Bool
  backendConn : Option Nat
  backendMutex : Option Tid
  /-- The call of `ReadFrom` that goes on. -/
  readMutex : Option Nat
  calls : Nat → Call
  renewal : Renewal
  closer : Closer
  /-- The goroutines of timeout callbacks; `done` where there is none. -/
  callbacks : Nat → Callback
  /-- How many connections were opened. -/
  opened : Nat
  /-- **History**: what has become of each connection. -/
  owner : Nat → Owner
  /-- **History**: how often each connection was closed. -/
  closes : Nat → Nat

def start : State where
  closed := false
  timeoutFlag := false
  backendConn := none
  backendMutex := none
  readMutex := none
  calls := fun _ => .out
  renewal := .idle
  closer := .out
  callbacks := fun _ => .done
  opened := 0
  owner := fun _ => .unopened
  closes := fun _ => 0

/-- Outcomes of `conn.Read` and `conn.Write`: `again` is a packet that cannot be opened. -/
inductive Io where
  | ok
  | again
  | failed
  deriving DecidableEq, Repr

inductive Label where
  /-- A call begins. -/
  | call (i : Nat) (kind : Kind)
  /-- The next step of a call, where it does not wait for a connection. -/
  | step (i : Nat)
  | io (i : Nat) (outcome : Io)
  /-- `renewTransportPath` begins, takes a step, has connected or not, and has heard from the
      server again or not. -/
  | renew
  | renewStep
  | connect (ok : Bool)
  | await (ok : Bool)
  /-- `Close` begins, and takes a step. -/
  | close
  | closeStep
  /-- The checker sets its flag and starts a callback; it clears the flag; a callback runs. -/
  | timeout (j : Nat)
  | recovered
  | callback (j : Nat)
  deriving DecidableEq, Repr

namespace Call

/-- What a woken call does. -/
def wake : Call → Call
  | .parked kind => .relock kind
  | c => c

/-- The call is between `Lock` and `Unlock`, and not parked. -/
def holds : Call → Bool
  | .testConn _ | .testClosed _ | .testTimeout | .wait _ | .unlock _ => true
  | _ => false

/-- The connection the call closes next. -/
def shuts : Call → Option Nat
  | .closing _ conn => some conn
  | _ => none

end Call

def Renewal.holds : Renewal → Bool
  | .store _ | .broadcast _ | .unlock _ => true
  | _ => false

def Renewal.shuts : Renewal → Option Nat
  | .closeOld conn | .closeNew conn => some conn
  | _ => none

def Closer.holds : Closer → Bool
  | .broadcast | .unlock => true
  | _ => false

def Closer.shuts : Closer → Option Nat
  | .closing conn => some conn
  | _ => none

def Callback.holds : Callback → Bool
  | .broadcast | .unlock => true
  | _ => false

namespace State

variable (s : State)

def setCall (i : Nat) (c : Call) : State := { s with calls := Function.update s.calls i c }

/-- A call returns; `ReadFrom` unlocks `readMutex`. -/
def finish (i : Nat) (kind : Kind) (r : Result) : State :=
  { s with
    calls := Function.update s.calls i (.returned r)
    readMutex := if kind = .read then none else s.readMutex }

/-- After a failure `ReadFrom` goes on with its loop and `WriteTo` returns. -/
def afterFailure (i : Nat) : Kind → State
  | .read => s.setCall i (.top .read)
  | .write => s.finish i .write .done

/-- `Broadcast`. -/
def wakeAll : State := { s with calls := fun i => (s.calls i).wake }

/-- A goroutine takes the connection out of the slot. -/
def take (t : Tid) (conn : Nat) : State :=
  { s with backendConn := none, owner := Function.update s.owner conn (.closing t) }

/-- `conn.Close()`. -/
def closeConn (conn : Nat) : State :=
  { s with
    owner := Function.update s.owner conn .closed
    closes := Function.update s.closes conn (s.closes conn + 1) }

end State

/-- A step of a call that does not depend on its connection. -/
def callStep (s : State) (i : Nat) : Option State :=
  match s.calls i with
  | .out | .io _ _ | .parked _ | .returned _ => none
  | .top kind =>
    if s.closed then some (s.finish i kind .eof)
    else match kind with
      | .read => some (s.setCall i (.load .read))
      | .write => some (s.setCall i .timeout)
  | .timeout =>
    if s.timeoutFlag then some (s.finish i .write .cached)
    else some (s.setCall i (.load .write))
  | .load kind =>
    match s.backendConn with
    | some conn => some (s.setCall i (.io kind conn))
    | none => some (s.setCall i (.lock kind))
  | .drop kind conn =>
    if s.backendConn = some conn then
      some ((s.take (.call i) conn).setCall i (.closing kind conn))
    else some (s.afterFailure i kind)
  | .closing kind conn => some ((s.closeConn conn).afterFailure i kind)
  | .lock kind | .relock kind =>
    enabledIf (s.backendMutex = none)
      { s.setCall i (.testConn kind) with backendMutex := some (.call i) }
  | .testConn kind =>
    if s.backendConn = none then some (s.setCall i (.testClosed kind))
    else some (s.setCall i (.unlock kind))
  | .testClosed kind =>
    if s.closed then some (s.setCall i (.unlock kind))
    else match kind with
      | .read => some (s.setCall i (.wait .read))
      | .write => some (s.setCall i .testTimeout)
  | .testTimeout =>
    if s.timeoutFlag then some (s.setCall i (.unlock .write))
    else some (s.setCall i (.wait .write))
  | .wait kind => some { s.setCall i (.parked kind) with backendMutex := none }
  | .unlock kind => some { s.setCall i (.top kind) with backendMutex := none }

/-- `conn.Read` or `conn.Write` returns.  A packet that cannot be sealed counts as sent. -/
def ioStep (s : State) (i : Nat) (outcome : Io) : Option State :=
  match s.calls i, outcome with
  | .io kind _, .ok => some (s.finish i kind .done)
  | .io .read _, .again => some (s.setCall i (.top .read))
  | .io kind conn, .failed => some (s.setCall i (.drop kind conn))
  | _, _ => none

def renewStep (s : State) : Option State :=
  match s.renewal with
  | .idle | .connect | .await _ => none
  | .swap =>
    match s.backendConn with
    | some conn => some { s.take .renewal conn with renewal := .closeOld conn }
    | none => some { s with renewal := .connect }
  | .closeOld conn => some { s.closeConn conn with renewal := .connect }
  | .lock conn =>
    enabledIf (s.backendMutex = none)
      { s with backendMutex := some .renewal, renewal := .store conn }
  | .store conn =>
    some { s with
      backendConn := some conn
      owner := Function.update s.owner conn .slot
      renewal := .broadcast conn }
  | .broadcast conn => some { s.wakeAll with renewal := .unlock conn }
  | .unlock conn => some { s with backendMutex := none, renewal := .await conn }
  | .drop conn =>
    if s.backendConn = some conn then
      some { s.take .renewal conn with renewal := .closeNew conn }
    else some { s with renewal := .idle }
  | .closeNew conn => some { s.closeConn conn with renewal := .idle }

/-- A renewal that fails to connect returns; its connection was never in the slot. -/
def connectStep (s : State) (ok : Bool) : Option State :=
  enabledIf (s.renewal = .connect)
    (if ok then
      { s with
        renewal := .lock s.opened
        opened := s.opened + 1
        owner := Function.update s.owner s.opened .renewing }
    else { s with renewal := .idle })

def awaitStep (s : State) (ok : Bool) : Option State :=
  match s.renewal with
  | .await conn => some { s with renewal := if ok then .idle else .drop conn }
  | _ => none

def closeStep (s : State) : Option State :=
  match s.closer with
  | .out | .done => none
  | .lock =>
    enabledIf (s.backendMutex = none) { s with backendMutex := some .closer, closer := .broadcast }
  | .broadcast => some { s.wakeAll with closer := .unlock }
  | .unlock => some { s with backendMutex := none, closer := .swap }
  | .swap =>
    match s.backendConn with
    | some conn => some { s.take .closer conn with closer := .closing conn }
    | none => some { s with closer := .done }
  | .closing conn => some { s.closeConn conn with closer := .done }

def callbackStep (s : State) (j : Nat) : Option State :=
  match s.callbacks j with
  | .done => none
  | .lock =>
    enabledIf (s.backendMutex = none)
      { s with
        backendMutex := some (.callback j)
        callbacks := Function.update s.callbacks j .broadcast }
  | .broadcast => some { s.wakeAll with callbacks := Function.update s.callbacks j .unlock }
  | .unlock =>
    some { s with backendMutex := none, callbacks := Function.update s.callbacks j .done }

def beginCall (s : State) (i : Nat) : Kind → Option State
  | .read =>
    enabledIf (s.calls i = .out ∧ s.readMutex = none)
      { s.setCall i (.top .read) with readMutex := some i }
  | .write => enabledIf (s.calls i = .out) (s.setCall i (.top .write))

def next (s : State) : Label → Option State
  | .call i kind => beginCall s i kind
  | .step i => callStep s i
  | .io i outcome => ioStep s i outcome
  | .renew => enabledIf (s.renewal = .idle) { s with renewal := .swap }
  | .renewStep => renewStep s
  | .connect ok => connectStep s ok
  | .await ok => awaitStep s ok
  | .close => enabledIf (s.closed = false) { s with closed := true, closer := .lock }
  | .closeStep => closeStep s
  | .timeout j =>
    enabledIf (s.timeoutFlag = false ∧ s.callbacks j = .done)
      { s with timeoutFlag := true, callbacks := Function.update s.callbacks j .lock }
  | .recovered => some { s with timeoutFlag := false }
  | .callback j => callbackStep s j

/-- All runs of a client proxy. -/
def proxyRuns : System State Label := .ofStep start next

/-! ## The goroutines as seen from the mutex and the connections -/

section Views

variable (calls : Nat → Call) (renewal : Renewal) (closer : Closer) (callbacks : Nat → Callback)

/-- Which goroutines are inside the sections of `backendMutex`. -/
def inside : Tid → Bool
  | .call i => (calls i).holds
  | .renewal => renewal.holds
  | .closer => closer.holds
  | .callback j => (callbacks j).holds

/-- The connection each goroutine closes next. -/
def shutting : Tid → Option Nat
  | .call i => (calls i).shuts
  | .renewal => renewal.shuts
  | .closer => closer.shuts
  | .callback _ => none

variable {calls renewal closer callbacks}

theorem inside_call (i : Nat) (c : Call) :
    inside (Function.update calls i c) renewal closer callbacks =
      Function.update (inside calls renewal closer callbacks) (.call i) c.holds := by
  funext t
  cases t with
  | call k =>
    by_cases hk : k = i
    · simp [inside, hk]
    · simp [inside, hk]
  | renewal => simp [inside]
  | closer => simp [inside]
  | callback j => simp [inside]

theorem inside_renewal (renewal r : Renewal) :
    inside calls r closer callbacks =
      Function.update (inside calls renewal closer callbacks) .renewal r.holds := by
  funext t
  cases t <;> simp [inside]

theorem inside_closer (closer c : Closer) :
    inside calls renewal c callbacks =
      Function.update (inside calls renewal closer callbacks) .closer c.holds := by
  funext t
  cases t <;> simp [inside]

theorem inside_callback (j : Nat) (c : Callback) :
    inside calls renewal closer (Function.update callbacks j c) =
      Function.update (inside calls renewal closer callbacks) (.callback j) c.holds := by
  funext t
  cases t with
  | callback k =>
    by_cases hk : k = j
    · simp [inside, hk]
    · simp [inside, hk]
  | renewal => simp [inside]
  | closer => simp [inside]
  | call i => simp [inside]

theorem shutting_call (i : Nat) (c : Call) :
    shutting (Function.update calls i c) renewal closer =
      Function.update (shutting calls renewal closer) (.call i) c.shuts := by
  funext t
  cases t with
  | call k =>
    by_cases hk : k = i
    · simp [shutting, hk]
    · simp [shutting, hk]
  | renewal => simp [shutting]
  | closer => simp [shutting]
  | callback j => simp [shutting]

theorem shutting_renewal (renewal r : Renewal) :
    shutting calls r closer =
      Function.update (shutting calls renewal closer) .renewal r.shuts := by
  funext t
  cases t <;> simp [shutting]

theorem shutting_closer (closer c : Closer) :
    shutting calls renewal c =
      Function.update (shutting calls renewal closer) .closer c.shuts := by
  funext t
  cases t <;> simp [shutting]

/-- The renewal and `Close` may go on without being seen. -/
theorem inside_congr {r : Renewal} {c : Closer} (hr : r.holds = renewal.holds)
    (hc : c.holds = closer.holds) :
    inside calls r c callbacks = inside calls renewal closer callbacks := by
  funext t
  cases t with
  | renewal => exact hr
  | closer => exact hc
  | call i => rfl
  | callback j => rfl

theorem shutting_congr {r : Renewal} {c : Closer} (hr : r.shuts = renewal.shuts)
    (hc : c.shuts = closer.shuts) : shutting calls r c = shutting calls renewal closer := by
  funext t
  cases t with
  | renewal => exact hr
  | closer => exact hc
  | call i => rfl
  | callback j => rfl

/-- A woken call is neither inside nor about to close a connection. -/
theorem inside_wake :
    inside (fun i => (calls i).wake) renewal closer callbacks =
      inside calls renewal closer callbacks := by
  funext t
  cases t with
  | call i =>
    show (calls i).wake.holds = (calls i).holds
    cases calls i <;> rfl
  | renewal => rfl
  | closer => rfl
  | callback j => rfl

theorem shutting_wake :
    shutting (fun i => (calls i).wake) renewal closer = shutting calls renewal closer := by
  funext t
  cases t with
  | call i =>
    show (calls i).wake.shuts = (calls i).shuts
    cases calls i <;> rfl
  | renewal => rfl
  | closer => rfl
  | callback j => rfl

end Views

/-! ## Who closes a connection -/

/-- The connection a renewal has not put into the slot yet. -/
def Renewal.carries : Renewal → Option Nat
  | .lock conn | .store conn => some conn
  | _ => none

/-- The renewal has emptied the slot and not filled it yet. -/
def Renewal.connecting : Renewal → Bool
  | .closeOld _ | .connect | .lock _ | .store _ => true
  | _ => false

/-- The history of a connection agrees with the slot and with what the goroutines are at. -/
structure Owned (backendConn : Option Nat) (shutting : Tid → Option Nat) (carried : Option Nat)
    (opened : Nat) (owner : Nat → Owner) (closes : Nat → Nat) : Prop where
  slot : OnlyAt owner .slot backendConn
  closing : ∀ t, OnlyAt owner (.closing t) (shutting t)
  renewing : OnlyAt owner .renewing carried
  fresh : ∀ c, opened ≤ c ↔ owner c = .unopened
  once : ∀ c, closes c = if owner c = .closed then 1 else 0

namespace Owned

variable {backendConn carried : Option Nat} {shutting : Tid → Option Nat} {opened : Nat}
  {owner : Nat → Owner} {closes : Nat → Nat} {t : Tid} {conn : Nat}

/-- A connection that was opened and is not closed moves on. -/
theorem fresh_update (h : Owned backendConn shutting carried opened owner closes) {o : Owner}
    (hconn : owner conn ≠ .unopened) (ho : o ≠ .unopened) (c : Nat) :
    opened ≤ c ↔ Function.update owner conn o c = .unopened := by
  rw [h.fresh c]
  by_cases hc : c = conn
  · simp [hc, hconn, ho]
  · rw [Function.update_of_ne hc]

theorem once_update (h : Owned backendConn shutting carried opened owner closes) {o : Owner}
    (hconn : owner conn ≠ .closed) (ho : o ≠ .closed) (c : Nat) :
    closes c = if Function.update owner conn o c = .closed then 1 else 0 := by
  rw [h.once c]
  by_cases hc : c = conn
  · simp [hc, hconn, ho]
  · rw [Function.update_of_ne hc]

/-- A goroutine that has nothing to close takes the connection out of the slot. -/
theorem take (h : Owned (some conn) shutting carried opened owner closes)
    (ht : shutting t = none) :
    Owned none (Function.update shutting t (some conn)) carried opened
      (Function.update owner conn (.closing t)) closes := by
  have howner : owner conn = .slot := (h.slot conn).mp rfl
  refine ⟨h.slot.leave howner (by simp), fun t' => ?_, h.renewing.pass (by simp [howner]) (by simp),
    h.fresh_update (by simp [howner]) (by simp), h.once_update (by simp [howner]) (by simp)⟩
  by_cases ht' : t' = t
  · subst ht'
    have hclosing := h.closing t'
    rw [ht] at hclosing
    rw [Function.update_self]
    exact hclosing.arrive
  · rw [Function.update_of_ne ht']
    exact (h.closing t').pass (by simp [howner]) (by simp [Ne.symm ht'])

/-- The goroutine closes what it took. -/
theorem close (h : Owned backendConn shutting carried opened owner closes)
    (ht : shutting t = some conn) :
    Owned backendConn (Function.update shutting t none) carried opened
      (Function.update owner conn .closed) (Function.update closes conn (closes conn + 1)) := by
  have howner : owner conn = .closing t := (h.closing t conn).mp ht
  refine ⟨h.slot.pass (by simp [howner]) (by simp), fun t' => ?_,
    h.renewing.pass (by simp [howner]) (by simp), h.fresh_update (by simp [howner]) (by simp),
    fun c => ?_⟩
  · by_cases ht' : t' = t
    · subst ht'
      rw [Function.update_self]
      exact (h.closing t').leave howner (by simp)
    · rw [Function.update_of_ne ht']
      exact (h.closing t').pass (by simp [howner, Ne.symm ht']) (by simp)
  · by_cases hc : c = conn
    · subst hc
      rw [Function.update_self, Function.update_self, h.once c, howner]
      rfl
    · rw [Function.update_of_ne hc, Function.update_of_ne hc, h.once c]

/-- A renewal has connected. -/
theorem connect (h : Owned backendConn shutting none opened owner closes) :
    Owned backendConn shutting (some opened) (opened + 1)
      (Function.update owner opened .renewing) closes := by
  have howner : owner opened = .unopened := (h.fresh opened).mp (Nat.le_refl _)
  refine ⟨h.slot.pass (by simp [howner]) (by simp),
    fun t' => (h.closing t').pass (by simp [howner]) (by simp), h.renewing.arrive, fun c => ?_,
    h.once_update (by simp [howner]) (by simp)⟩
  by_cases hc : c = opened
  · simp [hc]
  · rw [Function.update_of_ne hc, ← h.fresh c]
    omega

/-- The renewal puts its connection into the empty slot. -/
theorem store (h : Owned none shutting (some conn) opened owner closes) :
    Owned (some conn) shutting none opened (Function.update owner conn .slot) closes := by
  have howner : owner conn = .renewing := (h.renewing conn).mp rfl
  exact ⟨h.slot.arrive, fun t' => (h.closing t').pass (by simp [howner]) (by simp),
    h.renewing.leave howner (by simp), h.fresh_update (by simp [howner]) (by simp),
    h.once_update (by simp [howner]) (by simp)⟩

end Owned

end Backend
