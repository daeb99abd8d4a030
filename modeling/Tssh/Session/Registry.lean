import Tssh.Framework.System
import Mathlib.Data.List.Perm.Basic
import Mathlib.Logic.Function.Basic
import Mathlib.Tactic.Common

/-! # The Session Registry

    The goroutines of `tsshd` that share `sessionMap`, the active server and the server
    pointers of the sessions (`tsshd/session.go`, `tsshd/attach.go`, `tsshd/server.go`):

    * `handleStream` and `handleSessionEvent` open a stream, insert a new session, start its
      program, wait for its end and close the session;
    * `attachSession` hands a detached session to a server;
    * `closeSession` and `closeAllSessions` remove sessions and close them;
    * `activateServer` makes a server the active one and detaches all sessions.

    Every section under `sessionMutex` and every atomic access is one step; the sections
    under `attachMutex`, which contain several of them, are between explicit lock and unlock
    steps.  Whatever depends on the environment is free: whether a program starts, when it
    ends, whether a message can be sent, whether `busClosing` is set, and the order in which
    a Go map is listed.

    A goroutine step reads the shared state and has one `Effect` on it.
-/

open LTS

namespace Session

/-! ## State -/

/-- `sessionContext`, as far as the registry reads it.  The streams are only tested for
    being there. -/
structure SessionContext where
  id : Nat
  server : Option Nat
  ioStream : Bool
  errStream : Bool
  closed : Bool
  deriving DecidableEq, Repr

/-- Where `handleStream` and `handleSessionEvent` are with a new session. -/
inductive Handler where
  | serving (server : Nat)
  | active (server : Nat)
  | message (server : Nat)
  | create (server id : Nat)
  | start (sess : Nat)
  | ack (sess : Nat)
  | forwardIn (sess : Nat)
  | forwardErr (sess : Nat)
  | wait (sess : Nat)
  | ended (sess : Nat)
  deriving DecidableEq, Repr

/-- Where `attachSession` is. -/
inductive Attach where
  | lookup (server id : Nat)
  | closed (server sess : Nat)
  | lock (server sess : Nat)
  | active (server sess : Nat)
  | detached (server sess : Nat)
  | streams (server sess : Nat)
  | ack (server sess : Nat)
  | store (server sess : Nat)
  | unlock
  deriving DecidableEq, Repr

/-- Where `activateServer` is.  `list` has the local variable `oldServer`, `detach` the
    sessions `detachAllSessions` still has to detach. -/
inductive Activate where
  | lock (server : Nat)
  | busClosing (server : Nat)
  | swap (server : Nat)
  | list (server : Nat) (oldServer : Option Nat)
  | detach (server : Nat) (sessions : List Nat)
  | serve (server : Nat)
  | unlock (server : Nat)
  deriving DecidableEq, Repr

/-- A goroutine.  `closing` are the sessions that `closeSession` or `closeAllSessions` has
    removed and still has to close. -/
inductive Routine where
  | idle
  | handle (h : Handler)
  | attach (a : Attach)
  | exit (id : Nat)
  | closeAll
  | closing (sessions : List Nat)
  | activate (a : Activate)
  deriving DecidableEq, Repr

/-- The shared state and the goroutines.  `sessionMap` lists the sessions of the map, each
    under its own id; `count` sessions have been created so far.  `returned` is history: the
    server whose `activateServer` has returned and which has been active since then. -/
structure State where
  sessions : Nat → SessionContext
  count : Nat
  sessionMap : List Nat
  active : Option Nat
  serving : Nat → Bool
  attachMutex : Option Nat
  routines : Nat → Routine
  returned : Option Nat

def start : State where
  sessions := fun _ => ⟨0, none, false, false, false⟩
  count := 0
  sessionMap := []
  active := none
  serving := fun _ => false
  attachMutex := none
  routines := fun _ => .idle
  returned := none

/-- `sessionMap[id]`. -/
def State.find (s : State) (id : Nat) : Option Nat :=
  s.sessionMap.find? fun r => (s.sessions r).id == id

/-! ## Effects -/

/-- What a step does to the shared state. -/
inductive Effect where
  | nothing
  | insert (server id : Nat)
  | setIoStream (sess : Nat)
  | setErrStream (sess : Nat)
  | close (sess : Nat)
  | delete (id : Nat)
  | clear
  | lock
  | unlock
  | swap (server : Nat)
  | setServer (sess : Nat) (server : Option Nat)
  | serve (server : Nat)
  | finish (server : Nat)
  deriving DecidableEq, Repr

def State.setSession (s : State) (r : Nat) (c : SessionContext) : State :=
  { s with sessions := Function.update s.sessions r c }

def State.setRoutine (s : State) (g : Nat) (q : Routine) : State :=
  { s with routines := Function.update s.routines g q }

/-- The effect of goroutine `g`.  `close` is the `CompareAndSwap` of `Close`; what follows it
    does not touch the registry.  `finish` is the return of `activateServer`. -/
def Effect.apply (s : State) (g : Nat) : Effect → State
  | .nothing => s
  | .insert server id =>
    { s.setSession s.count ⟨id, some server, false, false, false⟩ with
      count := s.count + 1, sessionMap := s.sessionMap ++ [s.count] }
  | .setIoStream r => s.setSession r { s.sessions r with ioStream := true }
  | .setErrStream r => s.setSession r { s.sessions r with errStream := true }
  | .close r => s.setSession r { s.sessions r with closed := true }
  | .delete id => { s with sessionMap := s.sessionMap.filter fun r => (s.sessions r).id != id }
  | .clear => { s with sessionMap := [] }
  | .lock => { s with attachMutex := some g }
  | .unlock => { s with attachMutex := none }
  | .swap server =>
    { s with active := some server
             returned := if s.active = some server then s.returned else none }
  | .setServer r server => s.setSession r { s.sessions r with server := server }
  | .serve server => { s with serving := Function.update s.serving server true }
  | .finish server => { s with attachMutex := none, returned := some server }

/-! ## Goroutines -/

/-- A step of `handleStream` and `handleSessionEvent`.  `choice` is `0` where a call that may
    fail does not. -/
def Handler.step (s : State) (choice : Nat) : Handler → Option (Effect × Routine)
  | .serving server =>
    if s.serving server then some (.nothing, .handle (.active server)) else some (.nothing, .idle)
  | .active server =>
    if s.active = some server ∧ choice = 0 then some (.nothing, .handle (.message server))
    else some (.nothing, .idle)
  -- `recvMessage`: see `Label.message`
  | .message _ => none
  -- `newSessionContext`; it may fail before it takes `sessionMutex`
  | .create server id =>
    if choice = 0 ∧ s.find id = none then some (.insert server id, .handle (.start s.count))
    else some (.nothing, .idle)
  | .start r => some (.nothing, .handle (if choice = 0 then .ack r else .ended r))
  | .ack r => some (.nothing, .handle (if choice = 0 then .forwardIn r else .ended r))
  | .forwardIn r => some (.setIoStream r, .handle (.forwardErr r))
  | .forwardErr r => some (.setErrStream r, .handle (.wait r))
  | .wait r => some (.nothing, .handle (.ended r))
  | .ended r => some (.close r, .idle)

/-- A step of `attachSession`. -/
def Attach.step (attachable : Bool) (s : State) (choice : Nat) : Attach → Option (Effect × Routine)
  | .lookup server id =>
    match attachable, s.find id with
    | true, some r => some (.nothing, .attach (.closed server r))
    | _, _ => some (.nothing, .idle)
  | .closed server r =>
    if (s.sessions r).closed then some (.nothing, .idle)
    else some (.nothing, .attach (.lock server r))
  | .lock server r =>
    if s.attachMutex = none then some (.lock, .attach (.active server r)) else none
  | .active server r =>
    some (.nothing, .attach (if s.active = some server then .detached server r else .unlock))
  | .detached server r =>
    some (.nothing,
      .attach (if (s.sessions r).server = none then .streams server r else .unlock))
  | .streams server r =>
    some (.nothing, .attach
      (if (s.sessions r).ioStream && (s.sessions r).errStream then .ack server r else .unlock))
  | .ack server r => some (.nothing, .attach (if choice = 0 then .store server r else .unlock))
  | .store server r => some (.setServer r (some server), .attach .unlock)
  | .unlock => some (.unlock, .idle)

/-- A step of `activateServer`.  Without `attachable` it is one `CompareAndSwap`. -/
def Activate.step (attachable : Bool) (s : State) (choice : Nat) :
    Activate → Option (Effect × Routine)
  | .lock server =>
    if attachable then
      if s.attachMutex = none then some (.lock, .activate (.busClosing server)) else none
    else if s.active = none then some (.swap server, .activate (.serve server))
    else some (.nothing, .idle)
  | .busClosing server =>
    if choice = 0 then some (.nothing, .activate (.swap server)) else some (.unlock, .idle)
  | .swap server => some (.swap server, .activate (.list server s.active))
  | .list server _ => some (.nothing, .activate (.detach server s.sessionMap))
  | .detach server sessions =>
    if sessions = [] then some (.nothing, .activate (.serve server))
    else match sessions[choice]? with
      | some r => some (.setServer r none, .activate (.detach server (sessions.eraseIdx choice)))
      | none => none
  | .serve server => some (.serve server, .activate (.unlock server))
  | .unlock server => some (.finish server, .idle)

/-- A step of any goroutine. -/
def Routine.step (attachable : Bool) (s : State) (choice : Nat) :
    Routine → Option (Effect × Routine)
  | .idle => none
  | .handle h => h.step s choice
  | .attach a => a.step attachable s choice
  | .exit id =>
    match s.find id with
    | some r => some (.delete id, .closing [r])
    | none => some (.nothing, .idle)
  | .closeAll => some (.clear, .closing s.sessionMap)
  | .closing sessions =>
    if sessions = [] then some (.nothing, .idle)
    else match sessions[choice]? with
      | some r => some (.close r, .closing (sessions.eraseIdx choice))
      | none => none
  | .activate a => a.step attachable s choice

/-! ## The system -/

/-- `stream`, `bus`, `exit` and `closeAll` start a goroutine for what a client sends;
    `message` is the arrival of a start message, which asks for a new session or to attach
    to one. -/
inductive Label where
  | stream (g server : Nat)
  | bus (g server : Nat)
  | exit (g id : Nat)
  | closeAll (g : Nat)
  | message (g id : Nat) (attach : Bool)
  | step (g choice : Nat)
  deriving DecidableEq, Repr

/-- Start a goroutine where none runs. -/
def State.spawn (s : State) (g : Nat) (q : Routine) : Option State :=
  if s.routines g = .idle then some (s.setRoutine g q) else none

def next (attachable : Bool) (s : State) : Label → Option State
  | .stream g server => s.spawn g (.handle (.serving server))
  | .bus g server => s.spawn g (.activate (.lock server))
  | .exit g id => s.spawn g (.exit id)
  | .closeAll g => s.spawn g .closeAll
  | .message g id attach =>
    match s.routines g with
    | .handle (.message server) =>
      some (s.setRoutine g
        (if attach then .attach (.lookup server id) else .handle (.create server id)))
    | _ => none
  | .step g choice =>
    ((s.routines g).step attachable s choice).map fun r => (r.1.apply s g).setRoutine g r.2

/-- All interleavings of the goroutines. -/
def registry (attachable : Bool) : System State Label := .ofStep start (next attachable)

/-! ## What a step can do -/

section steps

variable {attachable : Bool} {s s' : State} {l : Label} {g : Nat} {e : Effect} {q q' : Routine}

@[simp] theorem setRoutine_self : (s.setRoutine g q).routines g = q := by
  simp [State.setRoutine]

@[simp] theorem setRoutine_ne {g' : Nat} (h : g' ≠ g) :
    (s.setRoutine g q).routines g' = s.routines g' := by
  simp [State.setRoutine, h]

@[simp] theorem apply_routines : (e.apply s g).routines = s.routines := by
  cases e <;> rfl

/-- Taking one element out of a list. -/
theorem mem_eraseIdx_or {L : List Nat} {i x : Nat} (hi : L[i]? = some x) (y : Nat) :
    y ∈ L ↔ y = x ∨ y ∈ L.eraseIdx i := by
  obtain ⟨hlt, rfl⟩ := List.getElem?_eq_some_iff.mp hi
  have hperm := List.getElem_cons_eraseIdx_perm hlt
  rw [← hperm.mem_iff, List.mem_cons]

/-- The state in which a goroutine starts, or goes on with a start message. -/
def Routine.isEntry : Routine → Bool
  | .handle (.serving _) | .handle (.create _ _) | .attach (.lookup _ _) => true
  | .activate (.lock _) | .exit _ | .closeAll => true
  | _ => false

/-- A goroutine that waits for something to do. -/
def Routine.isWaiting : Routine → Bool
  | .idle | .handle (.message _) => true
  | _ => false

/-- **What a step can do**: one goroutine moves, and has one effect; a goroutine that starts
    has none. -/
theorem next_cases (h : next attachable s l = some s') :
    ∃ g e q', s' = (e.apply s g).setRoutine g q' ∧
      ((∃ choice, l = .step g choice ∧ (s.routines g).step attachable s choice = some (e, q')) ∨
        (e = .nothing ∧ (s.routines g).isWaiting = true ∧ q'.isEntry = true)) := by
  have hspawn : ∀ g q, s.spawn g q = some s' → q.isEntry = true →
      ∃ g e q', s' = (e.apply s g).setRoutine g q' ∧
        ((∃ choice, l = .step g choice ∧ (s.routines g).step attachable s choice = some (e, q')) ∨
          (e = .nothing ∧ (s.routines g).isWaiting = true ∧ q'.isEntry = true)) := by
    intro g q hq hentry
    unfold State.spawn at hq
    split at hq
    · next hidle =>
      exact ⟨g, .nothing, q, (Option.some.inj hq).symm, .inr ⟨rfl, by rw [hidle]; rfl, hentry⟩⟩
    · cases hq
  cases l with
  | stream g server => exact hspawn g _ h rfl
  | bus g server => exact hspawn g _ h rfl
  | exit g id => exact hspawn g _ h rfl
  | closeAll g => exact hspawn g _ h rfl
  | message g id attach =>
    simp only [next] at h
    split at h
    · next server hmsg =>
      refine ⟨g, .nothing, _, (Option.some.inj h).symm, .inr ⟨rfl, by rw [hmsg]; rfl, ?_⟩⟩
      cases attach <;> rfl
    · cases h
  | step g choice =>
    obtain ⟨⟨e, q'⟩, hstep, rfl⟩ := Option.map_eq_some_iff.mp h
    exact ⟨g, e, q', rfl, .inl ⟨choice, rfl, hstep⟩⟩

end steps

end Session
