import Mathlib.Data.List.Basic
import Mathlib.Logic.Function.Basic

/-! # Initialising the Bus

    `initBusAndServer` (`tsshd/bus.go`) makes a server the active one, answers the client, and
    stores the stream as the bus.  `activateServer` (`tsshd/server.go`) does the first part: in
    attachable mode it takes the place of the server that was active and detaches all sessions
    (`detachAllSessions`, `tsshd/attach.go`); otherwise it needs the place to be free.

    A call that is refused changes nothing that matters.  A call whose answer cannot be sent
    returns `nil` with `busStream` still unset, and the activation stays
    (`init_unset_asBefore_iff`); in attachable mode the shutdown of the server that was active
    is under way, be it the same server.
-/

namespace BusInit

/-! ## State -/

/-- What ties a session to a client.  A stream is `none` when the session has no replaceable
    stream, and `some none` when that has nothing under it.  Streams, checkers and channels are
    known by number. -/
structure Attachment where
  server : Option Nat
  ioStream : Option (Option Nat)
  errStream : Option (Option Nat)
  clientChecker : Option Nat
  discardMarker : Option (List UInt8)
  waitCancel : Option Nat
  deriving DecidableEq, Repr

/-- `sshUdpServer`, as far as it is read or written here. -/
structure SshUdpServer where
  attachable : Bool
  client : Nat
  aliveTimeout : Int
  intervalTime : Int
  /-- The heartbeat timeout of the checker, once there is one. -/
  clientChecker : Option Int
  clientAliveTime : Int
  serving : Bool
  busStream : Option Nat
  deriving DecidableEq, Repr

/-- The process.  `sessions` are the sessions of `sessionMap` in the order a loop lists them,
    `clientServer` is the `server` pointer of each client, `sessionName` is that of
    `globalSocketInfo` if there is one, `closing` are the servers whose shutdown was started,
    and `canceled` are the `waitCancel` channels closed so far. -/
structure Process where
  activeSshUdpServer : Option Nat
  busClosing : Bool
  sessionName : Option String
  servers : Nat → SshUdpServer
  clientServer : Nat → Option Nat
  sessions : List (UInt64 × Attachment)
  maxSessionID : UInt64
  closing : List Nat
  canceled : List Nat

def Process.setServer (g : Process) (s : Nat) (server : SshUdpServer) : Process :=
  { g with servers := Function.update g.servers s server }

/-! ## Activation -/

/-- The body of the loop of `detachAllSessions`. -/
def Attachment.detach (a : Attachment) : Attachment where
  server := none
  ioStream := a.ioStream.map fun _ => none
  errStream := a.errStream.map fun _ => none
  clientChecker := none
  discardMarker := none
  waitCancel := none

def detachAllSessions (g : Process) (s : Nat) : Process :=
  if (g.servers s).attachable then
    { g with
      sessions := g.sessions.map fun entry => (entry.1, entry.2.detach)
      canceled := g.canceled ++ g.sessions.filterMap fun entry => entry.2.waitCancel }
  else g

/-- The last two stores of `activateServer`. -/
def startServing (g : Process) (s : Nat) : Process :=
  { g.setServer s { g.servers s with serving := true } with
    clientServer := Function.update g.clientServer (g.servers s).client (some s) }

def activateServer (g : Process) (s : Nat) (sessionName : String) : Except String Process :=
  if (g.servers s).attachable then
    if g.busClosing then .error "bus is closed"
    else
      let oldServer := g.activeSshUdpServer
      let g := { g with activeSshUdpServer := some s }
      let g := { g with
        sessionName := if oldServer = none then g.sessionName.map fun _ => sessionName
          else g.sessionName }
      let g := detachAllSessions g s
      let g := { g with closing := g.closing ++ oldServer.toList }
      .ok (startServing g s)
  else if g.activeSshUdpServer = none then
    .ok (startServing { g with activeSshUdpServer := some s } s)
  else .error "active server is already in use"

/-! ## The call -/

/-- `busMessage`, as far as it is read. -/
structure BusMessage where
  AliveTimeout : Int
  IntervalTime : Int
  HeartbeatTimeout : Int
  SessionName : String
  deriving DecidableEq, Repr

/-- What the environment contributes: the clock and the error of `sendResponse`. -/
structure Outcome where
  now : Int
  sendResponse : Option String
  deriving DecidableEq, Repr

/-- A call on the way out: the process, the `NextSessionID` it answered, and its error. -/
structure Result where
  process : Process
  answered : Option UInt64
  err : Option String

/-- `initClientChecker`, the alive time and the two durations. -/
def initChecker (g : Process) (s : Nat) (msg : BusMessage) (now : Int) : Process :=
  g.setServer s { g.servers s with
    clientChecker := some msg.HeartbeatTimeout
    clientAliveTime := now
    aliveTimeout := msg.AliveTimeout
    intervalTime := msg.IntervalTime }

def initBusAndServer (g : Process) (s stream : Nat) (msg : BusMessage) (o : Outcome) : Result :=
  if (g.servers s).busStream.isSome then
    { process := g, answered := none, err := some "bus has been initialized" }
  else
    let g := initChecker g s msg o.now
    match activateServer g s msg.SessionName with
    | .error err => { process := g, answered := none, err := some err }
    | .ok g =>
      match o.sendResponse with
      | some _ => { process := g, answered := none, err := none }
      | none =>
        { process := g.setServer s { g.servers s with busStream := some stream }
          answered := some (g.maxSessionID + 1)
          err := none }

/-- The call stores its stream as the bus. -/
def Sets (g : Process) (s stream : Nat) (msg : BusMessage) (o : Outcome) : Prop :=
  (g.servers s).busStream = none ∧
    ((initBusAndServer g s stream msg o).process.servers s).busStream = some stream

/-- What a call that sets no bus has to leave as it was; a shutdown that it starts ends in
    `Close`, which stores nil in the pointer of the client.  The last part is what it is for:
    the same and every other server can still be initialised as before. -/
structure AsBefore (g g' : Process) : Prop where
  active : g'.activeSshUdpServer = g.activeSshUdpServer
  closing : g'.closing = g.closing
  serving : ∀ t, (g'.servers t).serving = (g.servers t).serving
  client : g'.clientServer = g.clientServer
  sessions : g'.sessions = g.sessions
  retry : ∀ t stream msg o, Sets g' t stream msg o ↔ Sets g t stream msg o

/-! ## What a call does -/

/-- `activateServer` gives up. -/
def Refused (g : Process) (s : Nat) : Prop :=
  if (g.servers s).attachable then g.busClosing = true else g.activeSshUdpServer ≠ none

instance (g : Process) (s : Nat) : Decidable (Refused g s) := by
  unfold Refused
  infer_instance

variable {g g' : Process} {s : Nat}

theorem activateServer_of_refused (hrefused : Refused g s) (name : String) :
    ∃ err, activateServer g s name = .error err := by
  unfold Refused at hrefused
  unfold activateServer
  split at hrefused
  · next hattachable => exact ⟨_, by rw [if_pos hattachable, if_pos hrefused]⟩
  · next hattachable => exact ⟨_, by rw [if_neg hattachable, if_neg hrefused]⟩

/-- What a successful activation leaves. -/
structure Activated (g : Process) (s : Nat) (g' : Process) : Prop where
  active : g'.activeSshUdpServer = some s
  servers : g'.servers = Function.update g.servers s { g.servers s with serving := true }
  client : g'.clientServer = Function.update g.clientServer (g.servers s).client (some s)
  closing : g'.closing = if (g.servers s).attachable then
    g.closing ++ g.activeSshUdpServer.toList else g.closing
  sessions : g'.sessions = if (g.servers s).attachable then
    g.sessions.map (fun entry => (entry.1, entry.2.detach)) else g.sessions
  busClosing : g'.busClosing = g.busClosing

theorem activateServer_of_not_refused (hfree : ¬ Refused g s) (name : String) :
    ∃ g', activateServer g s name = .ok g' ∧ Activated g s g' := by
  unfold Refused at hfree
  unfold activateServer
  split at hfree
  · next hattachable =>
    rw [if_pos hattachable, if_neg hfree]
    refine ⟨_, rfl, ?_⟩
    simp only [detachAllSessions, if_pos hattachable]
    exact ⟨rfl, rfl, rfl, by rw [if_pos hattachable]; rfl, by rw [if_pos hattachable]; rfl, rfl⟩
  · next hattachable =>
    rw [if_neg hattachable, if_pos (not_not.mp hfree)]
    exact ⟨_, rfl, rfl, rfl, rfl, by rw [if_neg hattachable]; rfl, by rw [if_neg hattachable]; rfl,
      rfl⟩

theorem activateServer_ok {name : String} (hok : activateServer g s name = .ok g') :
    ¬ Refused g s ∧ Activated g s g' := by
  have hfree : ¬ Refused g s := by
    intro hrefused
    obtain ⟨err, herr⟩ := activateServer_of_refused hrefused name
    cases herr.symm.trans hok
  obtain ⟨g'', hok', hactivated⟩ := activateServer_of_not_refused hfree name
  cases hok'.symm.trans hok
  exact ⟨hfree, hactivated⟩

/-- The fields of a server that decide what a call does. -/
def SameServer (a b : SshUdpServer) : Prop :=
  a.attachable = b.attachable ∧ a.client = b.client ∧ a.busStream = b.busStream

theorem sameServer_update (servers : Nat → SshUdpServer) {server : SshUdpServer}
    (hsame : SameServer server (servers s)) (t : Nat) :
    SameServer (Function.update servers s server t) (servers t) := by
  by_cases ht : t = s
  · subst ht
    rw [Function.update_self]
    exact hsame
  · rw [Function.update_of_ne ht]
    exact ⟨rfl, rfl, rfl⟩

theorem initChecker_sameServer (g : Process) (s : Nat) (msg : BusMessage) (now : Int) (t : Nat) :
    SameServer ((initChecker g s msg now).servers t) (g.servers t) := by
  apply sameServer_update
  exact ⟨rfl, rfl, rfl⟩

theorem initChecker_serving (g : Process) (s : Nat) (msg : BusMessage) (now : Int) (t : Nat) :
    ((initChecker g s msg now).servers t).serving = (g.servers t).serving := by
  by_cases ht : t = s
  · subst ht
    simp only [initChecker, Process.setServer, Function.update_self]
  · simp only [initChecker, Process.setServer, Function.update_of_ne ht]

theorem refused_congr (hsame : SameServer (g'.servers s) (g.servers s))
    (hactive : g'.activeSshUdpServer = g.activeSshUdpServer)
    (hclosing : g'.busClosing = g.busClosing) : Refused g' s ↔ Refused g s := by
  unfold Refused
  rw [hsame.1, hactive, hclosing]

/-- The ways a call can go. -/
inductive Outcomes (g : Process) (s stream : Nat) (msg : BusMessage) (o : Outcome) : Prop where
  | initialized (hbus : (g.servers s).busStream ≠ none)
      (hprocess : (initBusAndServer g s stream msg o).process = g)
  | refused (hbus : (g.servers s).busStream = none) (hrefused : Refused g s)
      (hprocess : (initBusAndServer g s stream msg o).process = initChecker g s msg o.now)
  | unanswered (hbus : (g.servers s).busStream = none) (hfree : ¬ Refused g s)
      (hsend : o.sendResponse ≠ none)
      (hactivated : Activated (initChecker g s msg o.now) s
        (initBusAndServer g s stream msg o).process)
  | set (hbus : (g.servers s).busStream = none) (hfree : ¬ Refused g s)
      (hsend : o.sendResponse = none)
      (hset : ((initBusAndServer g s stream msg o).process.servers s).busStream = some stream)

theorem initBusAndServer_outcomes (g : Process) (s stream : Nat) (msg : BusMessage)
    (o : Outcome) : Outcomes g s stream msg o := by
  cases hbus : (g.servers s).busStream with
  | some bus =>
    refine .initialized (by rw [hbus]; nofun) ?_
    unfold initBusAndServer
    rw [hbus]
    rfl
  | none =>
    by_cases hrefused : Refused g s
    · obtain ⟨err, herr⟩ := activateServer_of_refused
        ((refused_congr (initChecker_sameServer g s msg o.now s) rfl rfl).mpr hrefused)
        msg.SessionName
      refine .refused hbus hrefused ?_
      unfold initBusAndServer
      simp only [hbus, herr]
      rfl
    · obtain ⟨g', hok, hactivated⟩ := activateServer_of_not_refused
        (fun h => hrefused
          ((refused_congr (initChecker_sameServer g s msg o.now s) rfl rfl).mp h))
        msg.SessionName
      cases hsend : o.sendResponse with
      | some err =>
        refine .unanswered hbus hrefused (by rw [hsend]; nofun) ?_
        unfold initBusAndServer
        simp only [hbus, hok, hsend]
        exact hactivated
      | none =>
        refine .set hbus hrefused hsend ?_
        unfold initBusAndServer
        simp only [hbus, hok, hsend]
        show (Function.update g'.servers s _ s).busStream = some stream
        rw [Function.update_self]

theorem servingServer_same (server : SshUdpServer) :
    SameServer { server with serving := true } server := ⟨rfl, rfl, rfl⟩

/-- A call that is not answered leaves these fields alone, on every server. -/
theorem Activated.sameServer {msg : BusMessage} {now : Int}
    (h : Activated (initChecker g s msg now) s g') (t : Nat) :
    SameServer (g'.servers t) (g.servers t) := by
  have hchecker := initChecker_sameServer g s msg now t
  have hserving := sameServer_update (initChecker g s msg now).servers
    (s := s) (servingServer_same _) t
  rw [← h.servers] at hserving
  exact ⟨hserving.1.trans hchecker.1, hserving.2.1.trans hchecker.2.1,
    hserving.2.2.trans hchecker.2.2⟩

theorem sets_iff (g : Process) (s stream : Nat) (msg : BusMessage) (o : Outcome) :
    Sets g s stream msg o ↔
      (g.servers s).busStream = none ∧ ¬ Refused g s ∧ o.sendResponse = none := by
  unfold Sets
  cases initBusAndServer_outcomes g s stream msg o with
  | initialized hbus _ => exact iff_of_false (fun h => hbus h.1) (fun h => hbus h.1)
  | refused hbus hrefused hprocess =>
    refine iff_of_false ?_ (fun h => h.2.1 hrefused)
    rintro ⟨-, hset⟩
    rw [hprocess, (initChecker_sameServer g s msg o.now s).2.2, hbus] at hset
    cases hset
  | unanswered hbus _ hsend hactivated =>
    refine iff_of_false ?_ (fun h => hsend h.2.2)
    rintro ⟨-, hset⟩
    rw [(hactivated.sameServer s).2.2, hbus] at hset
    cases hset
  | set hbus hfree hsend hset => exact iff_of_true ⟨hbus, hset⟩ ⟨hbus, hfree, hsend⟩

/-! ## The calls that set no bus -/

theorem asBefore_of_same (hactive : g'.activeSshUdpServer = g.activeSshUdpServer)
    (hshutdown : g'.closing = g.closing)
    (hserving : ∀ t, (g'.servers t).serving = (g.servers t).serving)
    (hclient : g'.clientServer = g.clientServer) (hsessions : g'.sessions = g.sessions)
    (hclosing : g'.busClosing = g.busClosing)
    (hsame : ∀ t, SameServer (g'.servers t) (g.servers t)) :
    AsBefore g g' := by
  refine ⟨hactive, hshutdown, hserving, hclient, hsessions, ?_⟩
  intro t stream msg o
  rw [sets_iff, sets_iff, (hsame t).2.2, refused_congr (hsame t) hactive hclosing]

/-- An activation is never without a trace: it sets the active server where there was none or
    another, and starts the shutdown of the one that was there. -/
theorem Activated.not_asBefore {msg : BusMessage} {now : Int} (hfree : ¬ Refused g s)
    (h : Activated (initChecker g s msg now) s g') : ¬ AsBefore g g' := by
  intro hsame
  have hactive : g.activeSshUdpServer = some s := hsame.active.symm.trans h.active
  -- a server that is not attachable would have been refused
  have hattachable : (g.servers s).attachable = true := by
    by_contra hnot
    apply hfree
    rw [Refused, if_neg hnot, hactive]
    exact Option.some_ne_none s
  -- so the server has replaced itself
  have hshutdown : g.closing = g.closing ++ [s] := by
    have hclosing := h.closing
    rw [(initChecker_sameServer g s msg now s).1, if_pos hattachable] at hclosing
    calc g.closing = g'.closing := hsame.closing.symm
      _ = g.closing ++ g.activeSshUdpServer.toList := hclosing
      _ = g.closing ++ [s] := by rw [hactive]; rfl
  exact absurd (List.append_right_eq_self.mp hshutdown.symm) (List.cons_ne_nil s [])

/-- **Calls that set no bus**: the active server, the shutdowns, the serving flags, the server
    pointers of the clients and the sessions are as before exactly when the server had a bus or
    the activation was refused. -/
theorem init_unset_asBefore_iff (g : Process) (s stream : Nat) (msg : BusMessage) (o : Outcome)
    (hunset : ((initBusAndServer g s stream msg o).process.servers s).busStream =
      (g.servers s).busStream) :
    AsBefore g (initBusAndServer g s stream msg o).process ↔
      (g.servers s).busStream ≠ none ∨ Refused g s := by
  cases initBusAndServer_outcomes g s stream msg o with
  | initialized hbus hprocess =>
    refine iff_of_true ?_ (.inl hbus)
    rw [hprocess]
    exact asBefore_of_same rfl rfl (fun _ => rfl) rfl rfl rfl (fun _ => ⟨rfl, rfl, rfl⟩)
  | refused hbus hrefused hprocess =>
    -- only the checker and the durations of the server are new
    refine iff_of_true ?_ (.inr hrefused)
    rw [hprocess]
    exact asBefore_of_same rfl rfl (initChecker_serving g s msg o.now) rfl rfl rfl
      (initChecker_sameServer g s msg o.now)
  | unanswered hbus hfree _ hactivated =>
    refine iff_of_false (hactivated.not_asBefore hfree) ?_
    rintro (hset | hrefused)
    · exact hset hbus
    · exact hfree hrefused
  | set hbus _ _ hset =>
    rw [hset, hbus] at hunset
    cases hunset

/-! ## Unanswered calls -/

def newServer (attachable : Bool) (client : Nat) : SshUdpServer where
  attachable := attachable
  client := client
  aliveTimeout := 0
  intervalTime := 0
  clientChecker := none
  clientAliveTime := 0
  serving := false
  busStream := none

/-- Servers that are not yet initialised, the client of each under the same number. -/
def freshProcess (attachable : Bool) : Process where
  activeSshUdpServer := none
  busClosing := false
  sessionName := none
  servers := newServer attachable
  clientServer := fun _ => none
  sessions := []
  maxSessionID := 0
  closing := []
  canceled := []

def busMessage : BusMessage where
  AliveTimeout := 100
  IntervalTime := 10
  HeartbeatTimeout := 3
  SessionName := "main"

/-- A first call whose answer cannot be sent. -/
def unansweredInit (attachable : Bool) : Result :=
  initBusAndServer (freshProcess attachable) 0 5 busMessage ⟨1, some "stream closed"⟩

/-- The answer cannot be sent: no bus, no error, and the server is active; a second client is
    then turned away. -/
theorem unanswered_init_stays_active :
    (unansweredInit false).err = none ∧
      ((unansweredInit false).process.servers 0).busStream = none ∧
      (unansweredInit false).process.activeSshUdpServer = some 0 ∧
      ¬ AsBefore (freshProcess false) (unansweredInit false).process ∧
      (initBusAndServer (unansweredInit false).process 1 6 busMessage ⟨2, none⟩).err =
        some "active server is already in use" := by
  refine ⟨rfl, rfl, rfl, ?_, rfl⟩
  intro hsame
  exact absurd hsame.active (by decide)

/-- Without attachable mode a second client is refused, and all is as it was before its call. -/
theorem refused_init_as_before :
    Refused (unansweredInit false).process 1 ∧
      AsBefore (unansweredInit false).process
        (initBusAndServer (unansweredInit false).process 1 6 busMessage ⟨2, none⟩).process := by
  have hrefused : Refused (unansweredInit false).process 1 := by decide
  exact ⟨hrefused,
    (init_unset_asBefore_iff _ 1 6 busMessage ⟨2, none⟩ rfl).mpr (.inr hrefused)⟩

/-- A server that is activated a second time, since its first answer was lost, starts its own
    shutdown. -/
example : (unansweredInit true).process.closing = [] ∧
    (initBusAndServer (unansweredInit true).process 0 6 busMessage
      ⟨2, some "stream closed"⟩).process.closing = [0] := ⟨rfl, rfl⟩

end BusInit
