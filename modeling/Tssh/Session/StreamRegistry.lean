import Mathlib.Data.List.Basic
import Mathlib.Logic.Function.Basic
import Tssh.Framework.System

/-! # The Streams of a Server

    `handleStream` (`tsshd/server.go`) enters each stream of a client into the `streamMap` of its
    server, and serves it if that server is the active one.  In attachable mode a client that
    attaches makes its own server the active one (`activateServer`), and a goroutine closes the
    streams of the server it replaces (`closeActiveStreams`) before it closes the server itself.

    Streams may arrive, be checked, served and unregistered while this goes on.  A stream may have
    passed the check for the active server just before another server took its place.

    * **Model**: any number of servers, streams, and goroutines that close a server.  What is done
      under `streamMutex` is one step; `attachMutex` and `busMutex` are held over several.
    * **Invariant** (`Inv`): a stream that is registered is in `streamMap`, or, once that is nil,
      closed or among those a goroutine still has to close.
    * `served_by_active`: an open stream that is served belongs to the active server, or some
      goroutine is on its way to close it.
    * `Tssh.Session.StreamShutdown`: what holds when the streams of a server have been closed.
-/

namespace StreamRegistry

open LTS

/-! ## Model -/

/-- The command a stream starts with. -/
inductive Command where
  | bus
  | session
  | stderr
  | dial
  | listen
  | accept
  | dialUdp
  | listenUdp
  | acceptUdp
  | unknown
  deriving DecidableEq, Repr

/-- `baseHandlers` and `forwardHandlers` have a handler for the command. -/
def Command.handled (enableForwardings : Bool) : Command → Bool
  | .bus | .session | .stderr => true
  | .dial | .listen | .accept | .dialUdp | .listenUdp | .acceptUdp => enableForwardings
  | .unknown => false

/-- Where `handleStream` is, with `handleBusEvent` up to the loop. -/
inductive Pc where
  /-- There is no such stream yet. -/
  | absent
  | register
  /-- The server is shutting down: the stream is closed. -/
  | refused
  | recv
  /-- A bus stream is taken out of `streamMap`. -/
  | unlist
  | isServing
  | isActive
  /-- The handler is looked up, and the client told. -/
  | hello
  | handling
  | busLock
  | activate
  /-- Another server was replaced, and goroutine `c` has to be started. -/
  | launch (c : Nat)
  | serve
  | ack
  /-- The deferred function. -/
  | unregister
  | close
  | done
  deriving DecidableEq, Repr

/-- One call of `handleStream`. -/
structure Handler where
  pc : Pc
  server : Nat
  id : Nat
  command : Command
  /-- **History**: taken out of `streamMap` as a bus stream. -/
  unlisted : Bool
  deriving DecidableEq, Repr

/-- Who calls `closeActiveStreams`. -/
inductive Caller where
  | takeover
  | close
  deriving DecidableEq, Repr

/-- A goroutine that closes a server: that of `activateServer`, or one that calls `Close`. -/
inductive Closer where
  | idle
  /-- The handler that replaced the server detaches the sessions before it starts this one. -/
  | starting (server : Nat)
  /-- Before `closeActiveStreams`. -/
  | streams (server : Nat) (caller : Caller)
  /-- With the entries whose streams it has to close. -/
  | closing (server : Nat) (entries : List (Nat × Nat)) (caller : Caller)
  /-- The old client is told to quit. -/
  | notify (server : Nat)
  /-- In `Close`: the flag, the bus, and the connection. -/
  | flag (server : Nat)
  | bus (server : Nat)
  | proto (server : Nat)
  deriving DecidableEq, Repr

structure State where
  /-- `streamMap` of each server, from ids to streams; `none` is nil. -/
  streamMap : Nat → Option (List (Nat × Nat))
  /-- An `atomic.Uint64`; the runs are those with fewer than 2^64 streams. -/
  nextStreamID : Nat → Nat
  serving : Nat → Bool
  serverClosed : Nat → Bool
  busMutex : Nat → Bool
  busStream : Nat → Option Nat
  activeSshUdpServer : Option Nat
  attachMutex : Bool
  handlers : Nat → Handler
  closers : Nat → Closer
  /-- The streams that were closed. -/
  closed : Nat → Bool

/-- What takes a step. -/
inductive Label where
  /-- A client opens stream `g` on a server. -/
  | stream (g server : Nat)
  /-- The command of stream `g` arrives, or an error. -/
  | command (g : Nat) (command : Option Command)
  /-- The handler of stream `g` goes on; `ok` is the outcome of what may fail. -/
  | handler (g : Nat) (ok : Bool)
  /-- `activateServer` in the handler of stream `g`, up to the `Swap`. -/
  | activate (g c : Nat) (ok : Bool)
  /-- The sessions are detached, and goroutine `c` is started. -/
  | go (c : Nat)
  /-- Goroutine `c` calls `Close`. -/
  | close (c server : Nat)
  | closer (c : Nat)
  deriving DecidableEq, Repr

namespace State

def setHandler (s : State) (g : Nat) (h : Handler) : State :=
  { s with handlers := Function.update s.handlers g h }

def setPc (s : State) (g : Nat) (pc : Pc) : State :=
  s.setHandler g { s.handlers g with pc := pc }

def setCloser (s : State) (c : Nat) (closer : Closer) : State :=
  { s with closers := Function.update s.closers c closer }

def closeStream (s : State) (g : Nat) : State :=
  { s with closed := Function.update s.closed g true }

/-- Stream `g` is entered under the next id into a map with the entries `m`. -/
def insert (s : State) (server g : Nat) (m : List (Nat × Nat)) : State :=
  let id := s.nextStreamID server + 1
  { s with
    nextStreamID := Function.update s.nextStreamID server id
    streamMap := Function.update s.streamMap server (some ((id, g) :: m)) }

/-- `delete(s.streamMap, id)`, which does nothing to a nil map. -/
def delete (s : State) (server id : Nat) : State :=
  { s with
    streamMap := Function.update s.streamMap server
      ((s.streamMap server).map fun m => m.filter fun entry => entry.1 ≠ id) }

end State

section Steps

variable (attachable enableForwardings : Bool)

/-- The next step of `handleStream`, from `Pc.recv` and `Pc.activate` apart. -/
def stepHandler (s : State) (g : Nat) (ok : Bool) : Option State :=
  let h := s.handlers g
  match h.pc with
  | .register =>
    match s.streamMap h.server with
    | none => some (s.setPc g .refused)
    | some m =>
      some ((s.insert h.server g m).setHandler g
        { h with pc := .recv, id := s.nextStreamID h.server + 1 })
  | .refused => some ((s.closeStream g).setPc g .done)
  | .unlist =>
    some ((s.delete h.server h.id).setHandler g { h with pc := .hello, unlisted := true })
  | .isServing => some (s.setPc g (if s.serving h.server then .isActive else .unregister))
  | .isActive =>
    some (s.setPc g (if s.activeSshUdpServer = some h.server then .hello else .unregister))
  | .hello =>
    if h.command.handled enableForwardings && ok then
      some (s.setPc g (if h.command = .bus then .busLock else .handling))
    else some (s.setPc g .unregister)
  | .handling => some (s.setPc g .unregister)
  | .busLock =>
    -- the message may be missing or of an old version; a second bus is refused
    if ok then
      enabledIf (s.busMutex h.server = false)
        (if (s.busStream h.server).isSome then s.setPc g .unregister
        else { s.setPc g .activate with busMutex := Function.update s.busMutex h.server true })
    else some (s.setPc g .unregister)
  | .launch c =>
    match s.closers c with
    | .starting _ => none
    | _ => some (s.setPc g .serve)
  | .serve =>
    some { s.setPc g .ack with
      serving := Function.update s.serving h.server true
      attachMutex := if attachable then false else s.attachMutex }
  | .ack =>
    let s := { s with busMutex := Function.update s.busMutex h.server false }
    -- without an answer the bus stays unset, and the activation stands
    if ok then
      some { s.setPc g .handling with busStream := Function.update s.busStream h.server (some g) }
    else some (s.setPc g .unregister)
  | .unregister => some ((s.delete h.server h.id).setPc g .close)
  | .close => some ((s.closeStream g).setPc g .done)
  | .absent | .recv | .activate | .done => none

/-- The command has arrived. -/
def recvCommand (s : State) (g : Nat) (command : Option Command) : Option State :=
  let h := s.handlers g
  enabledIf (h.pc = .recv)
    (match command with
    | none => s.setPc g .unregister
    | some command =>
      s.setHandler g
        { h with pc := if command = .bus then .unlist else .isServing, command := command })

/-- `activateServer` returned an error. -/
def refuseActivation (s : State) (g : Nat) : State :=
  { s.setPc g .unregister with
    busMutex := Function.update s.busMutex (s.handlers g).server false }

/-- `activateServer` up to the `Swap`: `ok` tells that the process is not closing.  A server that
    is replaced is left to goroutine `c`; a server can replace itself, when the answer to its first
    activation was not sent. -/
def activateServer (s : State) (g c : Nat) (ok : Bool) : Option State :=
  let v := (s.handlers g).server
  if attachable then
    enabledIf ((s.handlers g).pc = .activate ∧ s.attachMutex = false ∧ s.closers c = .idle)
      (if ok then
        match s.activeSshUdpServer with
        | none => { s.setPc g .serve with activeSshUdpServer := some v, attachMutex := true }
        | some old =>
          { (s.setPc g (.launch c)).setCloser c (.starting old) with
            activeSshUdpServer := some v, attachMutex := true }
      else refuseActivation s g)
  else
    enabledIf ((s.handlers g).pc = .activate)
      (if s.activeSshUdpServer = none then
        { s.setPc g .serve with activeSshUdpServer := some v }
      else refuseActivation s g)

/-- The `go` statement. -/
def startCloser (s : State) (c : Nat) : Option State :=
  match s.closers c with
  | .starting v => some (s.setCloser c (.streams v .takeover))
  | _ => none

/-- What follows `closeActiveStreams`. -/
def afterStreams (server : Nat) : Caller → Closer
  | .takeover => .notify server
  | .close => .proto server

/-- The next step of a goroutine that closes a server. -/
def stepCloser (s : State) (c : Nat) : Option State :=
  match s.closers c with
  | .idle | .starting _ => none
  | .streams v caller =>
    match s.streamMap v with
    | none => some (s.setCloser c (afterStreams v caller))
    | some m =>
      some ({ s with streamMap := Function.update s.streamMap v none }.setCloser c
        (.closing v m caller))
  | .closing v [] caller => some (s.setCloser c (afterStreams v caller))
  | .closing v ((_, g) :: entries) caller =>
    some ((s.closeStream g).setCloser c (.closing v entries caller))
  | .notify v => some (s.setCloser c (.flag v))
  | .flag v =>
    if s.serverClosed v then some (s.setCloser c .idle)
    else some { s.setCloser c (.bus v) with
      serverClosed := Function.update s.serverClosed v true }
  | .bus v =>
    enabledIf (s.busMutex v = false)
      (match s.busStream v with
      | none => s.setCloser c (.streams v .close)
      | some g => (s.closeStream g).setCloser c (.streams v .close))
  | .proto _ => some (s.setCloser c .idle)

def next (s : State) : Label → Option State
  | .stream g v =>
    enabledIf ((s.handlers g).pc = .absent)
      (s.setHandler g { s.handlers g with pc := .register, server := v })
  | .command g command => recvCommand s g command
  | .handler g ok => stepHandler attachable enableForwardings s g ok
  | .activate g c ok => activateServer attachable s g c ok
  | .go c => startCloser s c
  | .close c v => enabledIf (s.closers c = .idle) (s.setCloser c (.flag v))
  | .closer c => stepCloser s c

def start : State where
  streamMap := fun _ => some []
  nextStreamID := fun _ => 0
  serving := fun _ => false
  serverClosed := fun _ => false
  busMutex := fun _ => false
  busStream := fun _ => none
  activeSshUdpServer := none
  attachMutex := false
  handlers := fun _ =>
    { pc := .absent, server := 0, id := 0, command := .unknown, unlisted := false }
  closers := fun _ => .idle
  closed := fun _ => false

/-- All runs of the servers of a process. -/
def serverRuns : System State Label := .ofStep start (next attachable enableForwardings)

end Steps

/-! ## One stream -/

/-- The stream has its id. -/
def Pc.identified : Pc → Bool
  | .absent | .register | .refused | .close | .done => false
  | _ => true

/-- The stream has passed the check for the active server, or is a bus. -/
def Pc.served : Pc → Bool
  | .hello | .handling => true
  | _ => false

theorem Pc.identified_of_served {pc : Pc} (h : pc.served = true) : pc.identified = true := by
  cases pc <;> first | rfl | cases h

/-- What the place of a handler says about its command. -/
def Handler.Shape (h : Handler) : Prop :=
  match h.pc with
  | .absent | .register | .recv => h.unlisted = false
  | .unlist => h.unlisted = false ∧ h.command = .bus
  | .isServing | .isActive => h.unlisted = false ∧ h.command ≠ .bus
  | .hello | .handling => h.unlisted = true ↔ h.command = .bus
  | .busLock | .activate | .launch _ | .serve | .ack => h.unlisted = true ∧ h.command = .bus
  | .refused | .unregister | .close | .done => True

/-- What the streams of a server depend on. -/
structure Env where
  streamMap : Nat → Option (List (Nat × Nat))
  nextStreamID : Nat → Nat
  active : Option Nat
  closers : Nat → Closer
  closed : Nat → Bool

def State.env (s : State) : Env where
  streamMap := s.streamMap
  nextStreamID := s.nextStreamID
  active := s.activeSshUdpServer
  closers := s.closers
  closed := s.closed

/-- Goroutine `c` has the stream among those it closes. -/
def Env.Pending (e : Env) (server id g : Nat) : Prop :=
  ∃ c entries caller, e.closers c = .closing server entries caller ∧ (id, g) ∈ entries

/-- `streamMap` has the stream; once it is nil, the stream is closed or about to be. -/
def Env.Tracked (e : Env) (server id g : Nat) : Prop :=
  (∃ m, e.streamMap server = some m ∧ (id, g) ∈ m) ∨
  (e.streamMap server = none ∧ (e.closed g = true ∨ e.Pending server id g))

/-- The goroutine comes to `closeActiveStreams` of server `v`. -/
def Closer.comes (v : Nat) : Closer → Bool
  | .starting v' | .streams v' _ => v' = v
  | _ => false

theorem Closer.comes_eq_true (v : Nat) (closer : Closer) : closer.comes v = true ↔
    closer = .starting v ∨ ∃ caller, closer = .streams v caller := by
  cases closer <;> simp [Closer.comes]

/-- The server is active, or its streams are cut off or about to be. -/
def Env.Watched (e : Env) (server : Nat) : Prop :=
  e.active = some server ∨ e.streamMap server = none ∨ ∃ c, (e.closers c).comes server = true

/-- What is known of one call of `handleStream`. -/
structure HandlerOk (e : Env) (g : Nat) (h : Handler) : Prop where
  shape : h.Shape
  fresh : h.pc.identified = true → h.id ≤ e.nextStreamID h.server
  tracked : h.pc.identified = true → h.unlisted = false → e.Tracked h.server h.id g
  watched : h.pc.served = true → h.unlisted = false → e.Watched h.server

/-- The handler goes on, with nothing but its place changed. -/
theorem HandlerOk.setPc {e : Env} {g : Nat} {h : Handler} (ok : HandlerOk e g h) {pc : Pc}
    (hshape : Handler.Shape { h with pc := pc })
    (hid : pc.identified = true → h.pc.identified = true)
    (hserved : pc.served = true → h.unlisted = false → e.Watched h.server) :
    HandlerOk e g { h with pc := pc } where
  shape := hshape
  fresh := fun hpc => ok.fresh (hid hpc)
  tracked := fun hpc => ok.tracked (hid hpc)
  watched := hserved

/-- A handler without an id needs nothing from the servers. -/
theorem HandlerOk.of_unidentified {e : Env} {g : Nat} {h : Handler} (hshape : h.Shape)
    (hid : h.pc.identified = false) : HandlerOk e g h where
  shape := hshape
  fresh := fun hpc => by rw [hid] at hpc; cases hpc
  tracked := fun hpc => by rw [hid] at hpc; cases hpc
  watched := fun hpc => by cases hid.symm.trans (Pc.identified_of_served hpc)

/-- What the servers do to a stream that is registered. -/
theorem HandlerOk.of_env {e e' : Env} {g : Nat} {h : Handler} (ok : HandlerOk e g h)
    (hfresh : e.nextStreamID h.server ≤ e'.nextStreamID h.server)
    (htracked : e.Tracked h.server h.id g → e'.Tracked h.server h.id g)
    (hwatched : e.Watched h.server → e'.Watched h.server) : HandlerOk e' g h where
  shape := ok.shape
  fresh := fun hpc => Nat.le_trans (ok.fresh hpc) hfresh
  tracked := fun hpc hlisted => htracked (ok.tracked hpc hlisted)
  watched := fun hpc hlisted => hwatched (ok.watched hpc hlisted)

/-! ## What the steps do to the servers -/

namespace Env

variable {e : Env} {server id g c : Nat}

theorem Tracked.closeStream (h : e.Tracked server id g) (g' : Nat) :
    { e with closed := Function.update e.closed g' true }.Tracked server id g := by
  rcases h with hmap | ⟨hnil, hclosed | hpending⟩
  · exact .inl hmap
  · refine .inr ⟨hnil, .inl ?_⟩
    show Function.update e.closed g' true g = true
    by_cases hg : g = g'
    · rw [hg, Function.update_self]
    · rw [Function.update_of_ne hg]
      exact hclosed
  · exact .inr ⟨hnil, .inr hpending⟩

/-- A goroutine goes on; what it had still to close is closed or still to be closed. -/
theorem Tracked.setCloser (h : e.Tracked server id g) {closer : Closer}
    (hkeep : ∀ entries caller, e.closers c = .closing server entries caller → (id, g) ∈ entries →
      e.closed g = true ∨ ∃ entries' caller', closer = .closing server entries' caller' ∧
        (id, g) ∈ entries') :
    { e with closers := Function.update e.closers c closer }.Tracked server id g := by
  rcases h with hmap | ⟨hnil, hclosed | ⟨c', entries, caller, hc', hmem⟩⟩
  · exact .inl hmap
  · exact .inr ⟨hnil, .inl hclosed⟩
  · refine .inr ⟨hnil, ?_⟩
    by_cases hc : c' = c
    · subst hc
      rcases hkeep entries caller hc' hmem with hclosed | ⟨entries', caller', rfl, hmem'⟩
      · exact .inl hclosed
      · exact .inr ⟨c', entries', caller', Function.update_self .., hmem'⟩
    · exact .inr ⟨c', entries, caller, (Function.update_of_ne hc ..).trans hc', hmem⟩

/-- A goroutine that is not about to close the streams of the server may go on. -/
theorem Watched.setCloser (h : e.Watched server) {closer : Closer}
    (hkeep : (e.closers c).comes server = true →
      e.streamMap server = none ∨ closer.comes server = true) :
    { e with closers := Function.update e.closers c closer }.Watched server := by
  rcases h with hactive | hnil | ⟨c', hc'⟩
  · exact .inl hactive
  · exact .inr (.inl hnil)
  · by_cases hc : c' = c
    · subst hc
      rcases hkeep hc' with hnil | hcomes
      · exact .inr (.inl hnil)
      · exact .inr (.inr ⟨c', by simpa using hcomes⟩)
    · exact .inr (.inr ⟨c', by simpa [hc] using hc'⟩)

/-- Another server's map, or another entry, is changed. -/
theorem Tracked.setMap (h : e.Tracked server id g) {v : Nat} {map : Option (List (Nat × Nat))}
    (hkeep : v = server → ∀ m, e.streamMap server = some m → (id, g) ∈ m →
      ∃ m', map = some m' ∧ (id, g) ∈ m')
    (hnone : v = server → e.streamMap server = none → map = none) :
    { e with streamMap := Function.update e.streamMap v map }.Tracked server id g := by
  by_cases hv : server = v
  · subst hv
    rcases h with ⟨m, hm, hmem⟩ | ⟨hnil, hend⟩
    · obtain ⟨m', rfl, hmem'⟩ := hkeep rfl m hm hmem
      exact .inl ⟨m', Function.update_self .., hmem'⟩
    · exact .inr ⟨(Function.update_self ..).trans (hnone rfl hnil), hend⟩
  · have hsame : Function.update e.streamMap v map server = e.streamMap server :=
      Function.update_of_ne hv ..
    rcases h with ⟨m, hm, hmem⟩ | ⟨hnil, hend⟩
    · exact .inl ⟨m, hsame.trans hm, hmem⟩
    · exact .inr ⟨hsame.trans hnil, hend⟩

/-- A nil map stays nil. -/
theorem Watched.setMap (h : e.Watched server) {v : Nat} {map : Option (List (Nat × Nat))}
    (hnone : v = server → e.streamMap server = none → map = none) :
    { e with streamMap := Function.update e.streamMap v map }.Watched server := by
  rcases h with hactive | hnil | hcloser
  · exact .inl hactive
  · refine .inr (.inl ?_)
    show Function.update e.streamMap v map server = none
    by_cases hv : server = v
    · subst hv
      exact (Function.update_self ..).trans (hnone rfl hnil)
    · exact (Function.update_of_ne hv ..).trans hnil
  · exact .inr (.inr hcloser)

end Env

/-! ## What a step can be -/

/-- What one step of `handleStream` can do. -/
inductive HandlerStep (s : State) (g : Nat) : State → Prop where
  /-- The handler goes on, and no stream or map changes. -/
  | move {t : State} (pc : Pc) (henv : t.env = s.env)
      (hhandlers : t.handlers = (s.setPc g pc).handlers)
      (hshape : (s.handlers g).Shape → Handler.Shape { s.handlers g with pc := pc })
      (hid : pc.identified = true → (s.handlers g).pc.identified = true)
      (hserved : pc.served = true → (s.handlers g).Shape → (s.handlers g).unlisted = false →
        s.activeSshUdpServer = some (s.handlers g).server ∨
          (s.handlers g).pc.served = true) : HandlerStep s g t
  /-- The stream is registered. -/
  | register {m : List (Nat × Nat)} (hpc : (s.handlers g).pc = .register)
      (hmap : s.streamMap (s.handlers g).server = some m) :
      HandlerStep s g ((s.insert (s.handlers g).server g m).setHandler g
        { s.handlers g with pc := .recv, id := s.nextStreamID (s.handlers g).server + 1 })
  /-- The stream is taken out of the map. -/
  | remove {h' : Handler} (hid : (s.handlers g).pc.identified = true)
      (hserver : h'.server = (s.handlers g).server) (hident : h'.id = (s.handlers g).id)
      (hshape : (s.handlers g).Shape → h'.Shape)
      (hout : h'.pc.identified = true → h'.unlisted = true) :
      HandlerStep s g ((s.delete (s.handlers g).server (s.handlers g).id).setHandler g h')
  /-- The stream is closed. -/
  | close : HandlerStep s g ((s.closeStream g).setPc g .done)

section Handler

variable {s s' : State} {g : Nat}

/-- The deferred function is reached from every place with an id. -/
theorem HandlerStep.unregister {t : State} (henv : t.env = s.env)
    (hhandlers : t.handlers = (s.setPc g .unregister).handlers)
    (hid : (s.handlers g).pc.identified = true) : HandlerStep s g t :=
  .move .unregister henv hhandlers (fun _ => trivial) (fun _ => hid) nofun

theorem stepHandler_cases {attachable enableForwardings ok : Bool}
    (hnext : stepHandler attachable enableForwardings s g ok = some s') : HandlerStep s g s' := by
  cases hpc : (s.handlers g).pc with
  | absent | recv | activate | done => simp [stepHandler, hpc] at hnext
  | register =>
    simp only [stepHandler, hpc] at hnext
    split at hnext
    next =>
      obtain rfl := Option.some.inj hnext
      exact .move .refused rfl rfl (fun _ => trivial) nofun nofun
    next m hmap =>
      obtain rfl := Option.some.inj hnext
      exact .register hpc hmap
  | refused | close =>
    simp only [stepHandler, hpc] at hnext
    obtain rfl := Option.some.inj hnext
    exact .close
  | unlist =>
    simp only [stepHandler, hpc] at hnext
    obtain rfl := Option.some.inj hnext
    refine .remove (by rw [hpc]; rfl) rfl rfl (fun hshape => ?_) fun _ => rfl
    rw [Handler.Shape, hpc] at hshape
    simp [Handler.Shape, hshape.2]
  | isServing =>
    simp only [stepHandler, hpc] at hnext
    obtain rfl := Option.some.inj hnext
    split
    · refine .move .isActive rfl rfl (fun hshape => ?_) (fun _ => by rw [hpc]; rfl) nofun
      rwa [Handler.Shape, hpc] at hshape
    · exact .unregister rfl rfl (by rw [hpc]; rfl)
  | isActive =>
    simp only [stepHandler, hpc] at hnext
    obtain rfl := Option.some.inj hnext
    split
    next hactive =>
      refine .move .hello rfl rfl (fun hshape => ?_) (fun _ => by rw [hpc]; rfl)
        fun _ _ _ => .inl hactive
      rw [Handler.Shape, hpc] at hshape
      simp [Handler.Shape, hshape]
    next => exact .unregister rfl rfl (by rw [hpc]; rfl)
  | hello =>
    simp only [stepHandler, hpc] at hnext
    split at hnext <;> obtain rfl := Option.some.inj hnext
    · split
      next hbus =>
        refine .move .busLock rfl rfl (fun hshape => ?_) (fun _ => by rw [hpc]; rfl) nofun
        rw [Handler.Shape, hpc] at hshape
        exact ⟨hshape.mpr hbus, hbus⟩
      next =>
        refine .move .handling rfl rfl (fun hshape => ?_) (fun _ => by rw [hpc]; rfl)
          fun _ _ _ => .inr (by rw [hpc]; rfl)
        rwa [Handler.Shape, hpc] at hshape
    · exact .unregister rfl rfl (by rw [hpc]; rfl)
  | handling =>
    simp only [stepHandler, hpc] at hnext
    obtain rfl := Option.some.inj hnext
    exact .unregister rfl rfl (by rw [hpc]; rfl)
  | busLock =>
    simp only [stepHandler, hpc] at hnext
    split at hnext
    · obtain ⟨-, rfl⟩ := enabledIf_eq_some hnext
      split
      · exact .unregister rfl rfl (by rw [hpc]; rfl)
      · refine .move .activate rfl rfl (fun hshape => ?_) (fun _ => by rw [hpc]; rfl) nofun
        rwa [Handler.Shape, hpc] at hshape
    · obtain rfl := Option.some.inj hnext
      exact .unregister rfl rfl (by rw [hpc]; rfl)
  | launch c =>
    simp only [stepHandler, hpc] at hnext
    split at hnext
    · cases hnext
    · obtain rfl := Option.some.inj hnext
      refine .move .serve rfl rfl (fun hshape => ?_) (fun _ => by rw [hpc]; rfl) nofun
      rwa [Handler.Shape, hpc] at hshape
  | serve =>
    simp only [stepHandler, hpc] at hnext
    obtain rfl := Option.some.inj hnext
    refine .move .ack rfl rfl (fun hshape => ?_) (fun _ => by rw [hpc]; rfl) nofun
    rwa [Handler.Shape, hpc] at hshape
  | ack =>
    simp only [stepHandler, hpc] at hnext
    split at hnext <;> obtain rfl := Option.some.inj hnext
    · refine .move .handling rfl rfl (fun hshape => ?_) (fun _ => by rw [hpc]; rfl)
        fun _ hshape hlisted => ?_
      · rw [Handler.Shape, hpc] at hshape
        simp [Handler.Shape, hshape]
      · -- a bus is unlisted by now
        rw [Handler.Shape, hpc, hlisted] at hshape
        cases hshape.1
    · exact .unregister rfl rfl (by rw [hpc]; rfl)
  | unregister =>
    simp only [stepHandler, hpc] at hnext
    obtain rfl := Option.some.inj hnext
    exact .remove (by rw [hpc]; rfl) rfl rfl (fun _ => trivial) nofun

end Handler

/-- The goroutine has streams of server `v` to close. -/
def Closer.closes (v : Nat) : Closer → Bool
  | .closing v' _ _ => v' = v
  | _ => false

/-- What one step of a goroutine that closes a server can do. -/
inductive CloserStep (s : State) (c : Nat) : State → Prop where
  /-- It takes the streams of the server. -/
  | take {v : Nat} {m : List (Nat × Nat)} {caller : Caller}
      (hc : s.closers c = .streams v caller) (hmap : s.streamMap v = some m) :
      CloserStep s c ({ s with streamMap := Function.update s.streamMap v none }.setCloser c
        (.closing v m caller))
  /-- It closes one of them. -/
  | close {v : Nat} {entry : Nat × Nat} {entries : List (Nat × Nat)} {caller : Caller}
      (hc : s.closers c = .closing v (entry :: entries) caller) :
      CloserStep s c ((s.closeStream entry.2).setCloser c (.closing v entries caller))
  /-- It goes on, with no streams to take or to close; the bus may be closed. -/
  | move {t r : State} (closer : Closer) (ht : t = s ∨ ∃ g, t = s.closeStream g)
      (hstreams : ∀ v, (s.closers c).comes v = true → s.streamMap v = none)
      (hclosing : ∀ v entries caller, s.closers c = .closing v entries caller → entries = [])
      (hcloser : ∀ v, closer.closes v = false) (henv : r.env = (t.setCloser c closer).env)
      (hhandlers : r.handlers = s.handlers) : CloserStep s c r

theorem closes_afterStreams (v v' : Nat) (caller : Caller) :
    (afterStreams v' caller).closes v = false := by
  cases caller <;> rfl

theorem stepCloser_cases {s s' : State} {c : Nat} (hnext : stepCloser s c = some s') :
    CloserStep s c s' := by
  cases hc : s.closers c with
  | idle | starting v => simp [stepCloser, hc] at hnext
  | streams v caller =>
    simp only [stepCloser, hc] at hnext
    split at hnext <;> obtain rfl := Option.some.inj hnext
    next hnil =>
      refine .move _ (.inl rfl) (fun v' hcomes => ?_) (by simp [hc])
        (fun v' => closes_afterStreams v' v caller) rfl rfl
      rw [hc] at hcomes
      exact of_decide_eq_true hcomes ▸ hnil
    next m hmap => exact .take hc hmap
  | closing v entries caller =>
    cases entries <;> simp only [stepCloser, hc] at hnext <;>
      obtain rfl := Option.some.inj hnext
    · exact .move _ (.inl rfl) (by simp [hc, Closer.comes]) (by simp [hc])
        (fun v' => closes_afterStreams v' v caller) rfl rfl
    · exact .close hc
  | notify v | proto v =>
    simp only [stepCloser, hc] at hnext
    obtain rfl := Option.some.inj hnext
    exact .move _ (.inl rfl) (by simp [hc, Closer.comes]) (by simp [hc]) (fun _ => rfl) rfl rfl
  | flag v =>
    simp only [stepCloser, hc] at hnext
    split at hnext <;> obtain rfl := Option.some.inj hnext
    · exact .move .idle (.inl rfl) (by simp [hc, Closer.comes]) (by simp [hc]) (fun _ => rfl) rfl
        rfl
    · exact .move (.bus v) (.inl rfl) (by simp [hc, Closer.comes]) (by simp [hc]) (fun _ => rfl)
        rfl rfl
  | bus v =>
    simp only [stepCloser, hc] at hnext
    obtain ⟨-, rfl⟩ := enabledIf_eq_some hnext
    split
    · exact .move (.streams v .close) (.inl rfl) (by simp [hc, Closer.comes]) (by simp [hc])
        (fun _ => rfl) rfl rfl
    next g _ =>
      exact .move (.streams v .close) (.inr ⟨g, rfl⟩) (by simp [hc, Closer.comes]) (by simp [hc])
        (fun _ => rfl) rfl rfl

theorem startCloser_cases {s s' : State} {c : Nat} (hnext : startCloser s c = some s') :
    ∃ v, s.closers c = .starting v ∧ s' = s.setCloser c (.streams v .takeover) := by
  unfold startCloser at hnext
  split at hnext
  next v hc => exact ⟨v, hc, (Option.some.inj hnext).symm⟩
  next => cases hnext

/-! ## All streams -/

/-- Every stream is right, and no two streams of a server have one id. -/
structure Inv (s : State) : Prop where
  ok : ∀ g, HandlerOk s.env g (s.handlers g)
  uniq : ∀ g g', (s.handlers g).pc.identified = true → (s.handlers g').pc.identified = true →
    (s.handlers g).server = (s.handlers g').server → (s.handlers g).id = (s.handlers g').id → g = g'

namespace Inv

variable {s s' : State} {g c : Nat}

theorem start : Inv start where
  ok := fun _ => .of_unidentified rfl rfl
  uniq := fun _ _ hid => by cases hid

section

variable (h : Inv s)
include h

/-- One handler goes on, with an id that no other has. -/
theorem setFresh {h' : Handler} (hok : HandlerOk s.env g h')
    (hnew : h'.pc.identified = true → ∀ j, j ≠ g → (s.handlers j).pc.identified = true →
      (s.handlers j).server = h'.server → (s.handlers j).id ≠ h'.id) : Inv (s.setHandler g h') := by
  have hother : ∀ {j}, j ≠ g → (s.setHandler g h').handlers j = s.handlers j :=
    fun hj => Function.update_of_ne hj ..
  have hself : (s.setHandler g h').handlers g = h' := Function.update_self ..
  refine ⟨fun j => ?_, fun j j' hj hj' hserver hident => ?_⟩
  · by_cases hjg : j = g
    · subst hjg
      rw [hself]
      exact hok
    · rw [hother hjg]
      exact h.ok j
  · by_cases hjg : j = g <;> by_cases hjg' : j' = g
    · rw [hjg, hjg']
    · subst hjg
      rw [hself] at hj hserver hident
      rw [hother hjg'] at hj' hserver hident
      exact absurd hident.symm (hnew hj j' hjg' hj' hserver.symm)
    · subst hjg'
      rw [hself] at hj' hserver hident
      rw [hother hjg] at hj hserver hident
      exact absurd hident (hnew hj' j hjg hj hserver)
    · rw [hother hjg] at hj hserver hident
      rw [hother hjg'] at hj' hserver hident
      exact h.uniq j j' hj hj' hserver hident

/-- One handler goes on, and keeps its id if it has one. -/
theorem setHandler {h' : Handler} (hok : HandlerOk s.env g h')
    (hid : h'.pc.identified = true → (s.handlers g).pc.identified = true ∧
      h'.server = (s.handlers g).server ∧ h'.id = (s.handlers g).id) : Inv (s.setHandler g h') := by
  refine h.setFresh hok fun hpc j hj hjid hserver hident => hj ?_
  obtain ⟨hgid, hserverg, hidg⟩ := hid hpc
  exact h.uniq j g hjid hgid (hserver.trans hserverg) (hident.trans hidg)

/-- One handler moves to another place. -/
theorem setPc {pc : Pc} (hshape : Handler.Shape { s.handlers g with pc := pc })
    (hid : pc.identified = true → (s.handlers g).pc.identified = true)
    (hserved : pc.served = true → (s.handlers g).unlisted = false →
      s.env.Watched (s.handlers g).server) : Inv (s.setPc g pc) :=
  h.setHandler ((h.ok g).setPc hshape hid hserved) fun hpc => ⟨hid hpc, rfl, rfl⟩

/-- A handler that leaves needs nothing to be shown of its command. -/
theorem leave {pc : Pc} (hpc : pc = .refused ∨ pc = .close ∨ pc = .done ∨
      (pc = .unregister ∧ (s.handlers g).pc.identified = true)) : Inv (s.setPc g pc) := by
  rcases hpc with rfl | rfl | rfl | ⟨rfl, hid⟩
  · exact h.setPc trivial nofun nofun
  · exact h.setPc trivial nofun nofun
  · exact h.setPc trivial nofun nofun
  · exact h.setPc trivial (fun _ => hid) nofun

/-- The servers change under the streams. -/
theorem of_env (hhandlers : s'.handlers = s.handlers)
    (hkeep : ∀ j, HandlerOk s.env j (s.handlers j) → HandlerOk s'.env j (s.handlers j)) :
    Inv s' where
  ok := fun j => hhandlers ▸ hkeep j (h.ok j)
  uniq := hhandlers ▸ h.uniq

/-- The invariant reads the streams and what they depend on. -/
theorem congr (henv : s'.env = s.env) (hhandlers : s'.handlers = s.handlers) : Inv s' :=
  h.of_env hhandlers fun _ ok => henv ▸ ok

theorem closeStream (g : Nat) : Inv (s.closeStream g) :=
  h.of_env rfl fun _ ok => ok.of_env (Nat.le_refl _) (fun ht => ht.closeStream g) (fun hw => hw)

/-- A goroutine goes on that neither is about to take the streams of a server, nor has any left
    to close, or does so later. -/
theorem setCloser {closer : Closer}
    (hcomes : ∀ v, (s.closers c).comes v = true → s.streamMap v = none ∨ closer.comes v = true)
    (hclosing : ∀ v entries caller, s.closers c = .closing v entries caller →
      ∀ entry ∈ entries, s.closed entry.2 = true ∨
        ∃ entries' caller', closer = .closing v entries' caller' ∧ entry ∈ entries') :
    Inv (s.setCloser c closer) :=
  h.of_env rfl fun _ ok => ok.of_env (Nat.le_refl _)
    (fun ht => ht.setCloser fun entries caller hc hmem => hclosing _ entries caller hc _ hmem)
    (fun hw => hw.setCloser (hcomes _))

/-- An entry is deleted, when the stream it belongs to is gone from the map for good. -/
theorem delete {v id : Nat}
    (hgone : ∀ j, (s.handlers j).pc.identified = true → (s.handlers j).unlisted = false →
      (s.handlers j).server = v → (s.handlers j).id ≠ id) : Inv (s.delete v id) := by
  refine h.of_env rfl fun j ok => ⟨ok.shape, ok.fresh, fun hid hlisted => ?_, fun hpc hlisted => ?_⟩
  · refine (ok.tracked hid hlisted).setMap (fun hv m hm hmem => ?_) (fun hv hnil => ?_)
    · refine ⟨m.filter fun entry => entry.1 ≠ id, ?_, ?_⟩
      · rw [hv, show s.streamMap (s.handlers j).server = some m from hm]
        rfl
      · exact List.mem_filter.mpr ⟨hmem, by simpa using hgone j hid hlisted hv.symm⟩
    · rw [hv, show s.streamMap (s.handlers j).server = none from hnil]
      rfl
  · refine (ok.watched hpc hlisted).setMap fun hv hnil => ?_
    rw [hv, show s.streamMap (s.handlers j).server = none from hnil]
    rfl

/-- A handler leaves the map: it moves on, and its entry is deleted. -/
theorem remove {h' : Handler} (hid : (s.handlers g).pc.identified = true)
    (hok : HandlerOk s.env g h') (hserver : h'.server = (s.handlers g).server)
    (hident : h'.id = (s.handlers g).id) (hout : h'.pc.identified = true → h'.unlisted = true) :
    Inv ((s.delete (s.handlers g).server (s.handlers g).id).setHandler g h') := by
  have hmoved : Inv (s.setHandler g h') := h.setHandler hok fun _ => ⟨hid, hserver, hident⟩
  have hdeleted : Inv ((s.setHandler g h').delete (s.handlers g).server (s.handlers g).id) := by
    refine hmoved.delete fun j hjid hlisted hjserver hjident => ?_
    by_cases hj : j = g
    · subst hj
      rw [show (s.setHandler j h').handlers j = h' from Function.update_self ..] at hjid hlisted
      rw [hout hjid] at hlisted
      cases hlisted
    · rw [show (s.setHandler g h').handlers j = s.handlers j from Function.update_of_ne hj ..]
        at hjid hjserver hjident
      exact hj (h.uniq j g hjid hid hjserver hjident)
  -- the two changes are of different fields, so their order does not matter
  exact hdeleted

end

theorem insert_nextStreamID (s : State) (v g : Nat) (m : List (Nat × Nat)) :
    (s.insert v g m).nextStreamID v = s.nextStreamID v + 1 := by
  simp [State.insert]

/-- A larger map and a larger counter leave the streams as they are. -/
theorem insert (h : Inv s) {v : Nat} {m : List (Nat × Nat)} (hmap : s.streamMap v = some m) :
    Inv (s.insert v g m) := by
  have hcounter : ∀ v', s.nextStreamID v' ≤ (s.insert v g m).nextStreamID v' := by
    intro v'
    by_cases hv : v' = v
    · rw [hv, insert_nextStreamID]
      exact Nat.le_succ _
    · exact Nat.le_of_eq (Function.update_of_ne hv ..).symm
  have hnil : ∀ {v'}, v = v' → s.env.streamMap v' = none →
      some ((s.nextStreamID v + 1, g) :: m) = none := by
    rintro v' rfl hnone
    cases hmap.symm.trans hnone
  refine h.of_env rfl fun j ok => ok.of_env (hcounter _) (fun ht => ?_) (fun hw => hw.setMap hnil)
  refine ht.setMap (fun hv m' hm' hmem => ⟨_, rfl, ?_⟩) hnil
  subst hv
  obtain rfl := Option.some.inj (hmap.symm.trans hm')
  exact List.mem_cons_of_mem _ hmem

/-- A stream is registered under the next id. -/
theorem register (h : Inv s) (hpc : (s.handlers g).pc = .register) {m : List (Nat × Nat)}
    (hmap : s.streamMap (s.handlers g).server = some m) :
    Inv ((s.insert (s.handlers g).server g m).setHandler g
      { s.handlers g with pc := .recv, id := s.nextStreamID (s.handlers g).server + 1 }) := by
  have hshape : (s.handlers g).unlisted = false := by
    have hshape := (h.ok g).shape
    rwa [Handler.Shape, hpc] at hshape
  refine (h.insert hmap).setFresh ⟨hshape, fun _ => ?_, fun _ _ => ?_, nofun⟩ ?_
  · exact Nat.le_of_eq (insert_nextStreamID s _ g m).symm
  · exact .inl ⟨_ :: m, Function.update_self .., List.mem_cons_self⟩
  · -- the ids given so far are smaller
    intro _ j _ hjid hjserver hjident
    have hle : (s.handlers j).id ≤ s.nextStreamID (s.handlers j).server := (h.ok j).fresh hjid
    rw [show (s.handlers j).server = (s.handlers g).server from hjserver,
      show (s.handlers j).id = s.nextStreamID (s.handlers g).server + 1 from hjident] at hle
    omega

/-- A goroutine takes the streams of a server, and leaves a nil map. -/
theorem take (h : Inv s) {v : Nat} {m : List (Nat × Nat)} {caller : Caller}
    (hcloser : s.closers c = .streams v caller) (hmap : s.streamMap v = some m) :
    Inv ({ s with streamMap := Function.update s.streamMap v none }.setCloser c
      (.closing v m caller)) := by
  refine h.of_env rfl fun j ok => ok.of_env (Nat.le_refl _) (fun ht => ?_) (fun hw => ?_)
  · by_cases hv : (s.handlers j).server = v
    · -- the stream is among those taken
      rcases ht with ⟨m', hm', hmem⟩ | ⟨hnil, -⟩
      · rw [hv, show s.env.streamMap v = s.streamMap v from rfl, hmap] at hm'
        cases hm'
        refine .inr ⟨?_, .inr ⟨c, m, caller, ?_, hmem⟩⟩
        · rw [hv]
          exact Function.update_self ..
        · rw [hv]
          exact Function.update_self ..
      · rw [hv, show s.env.streamMap v = s.streamMap v from rfl, hmap] at hnil
        cases hnil
    · have hset : { s.env with streamMap := Function.update s.env.streamMap v none }.Tracked
          (s.handlers j).server (s.handlers j).id j :=
        ht.setMap (fun heq => absurd heq.symm hv) (fun heq => absurd heq.symm hv)
      refine hset.setCloser fun entries caller' hc _ => ?_
      cases hcloser.symm.trans hc
  · by_cases hv : (s.handlers j).server = v
    · refine .inr (.inl ?_)
      rw [hv]
      exact Function.update_self ..
    · have hset : { s.env with streamMap := Function.update s.env.streamMap v none }.Watched
          (s.handlers j).server := hw.setMap fun heq => absurd heq.symm hv
      refine hset.setCloser fun hcomes => ?_
      rw [show s.env.closers c = .streams v caller from hcloser] at hcomes
      exact absurd (of_decide_eq_true hcomes).symm hv

/-- A server becomes active, and the one it replaces is left to a goroutine. -/
theorem activated (h : Inv s) {v : Nat} {closer : Closer} (hidle : s.closers c = .idle)
    (hold : ∀ old, s.activeSshUdpServer = some old → closer.comes old = true) :
    Inv { s.setCloser c closer with activeSshUdpServer := some v } := by
  refine h.of_env rfl fun j ok => ok.of_env (Nat.le_refl _) (fun ht => ?_) (fun hw => ?_)
  · refine ht.setCloser fun entries caller hc _ => ?_
    cases hidle.symm.trans hc
  · rcases hw with hactive | hnil | ⟨c', hcomes⟩
    · refine .inr (.inr ⟨c, ?_⟩)
      simpa [State.env, State.setCloser] using hold _ hactive
    · exact .inr (.inl hnil)
    · have hne : c' ≠ c := by
        rintro rfl
        rw [show s.env.closers c' = .idle from hidle] at hcomes
        cases hcomes
      exact .inr (.inr ⟨c', by simpa [State.env, State.setCloser, hne] using hcomes⟩)

/-- No server was active, so none is replaced. -/
theorem activated_first (h : Inv s) {v : Nat} (hnone : s.activeSshUdpServer = none) :
    Inv { s with activeSshUdpServer := some v } := by
  refine h.of_env rfl fun j ok => ok.of_env (Nat.le_refl _) (fun ht => ht) (fun hw => ?_)
  rcases hw with hactive | hrest
  · cases hnone.symm.trans hactive
  · exact .inr hrest

theorem recvCommand (h : Inv s) {command : Option Command}
    (hnext : recvCommand s g command = some s') : Inv s' := by
  obtain ⟨hpc, rfl⟩ := enabledIf_eq_some hnext
  have hid : (s.handlers g).pc.identified = true := by rw [hpc]; rfl
  have hshape : (s.handlers g).unlisted = false := by
    have hshape := (h.ok g).shape
    rwa [Handler.Shape, hpc] at hshape
  cases command with
  | none => exact h.leave (.inr (.inr (.inr ⟨rfl, hid⟩)))
  | some command =>
    have ok := h.ok g
    refine h.setHandler ⟨?_, fun _ => ok.fresh hid, fun _ => ok.tracked hid, ?_⟩
      fun _ => ⟨hid, rfl, rfl⟩
    · by_cases hbus : command = .bus
      · simp [hbus, Handler.Shape, hshape]
      · simp [hbus, Handler.Shape, hshape]
    · intro hserved
      by_cases hbus : command = .bus <;> simp [hbus, Pc.served] at hserved

theorem activateServer (h : Inv s) {attachable ok : Bool}
    (hnext : activateServer attachable s g c ok = some s') : Inv s' := by
  have hgo : ∀ pc, pc = .serve ∨ pc = .launch c → (s.handlers g).pc = .activate →
      Inv (s.setPc g pc) := by
    intro pc hpc' hpc
    have hshape := (h.ok g).shape
    rw [Handler.Shape, hpc] at hshape
    rcases hpc' with rfl | rfl <;> exact h.setPc hshape (fun _ => by rw [hpc]; rfl) nofun
  have hrefuse : (s.handlers g).pc = .activate → Inv (refuseActivation s g) := by
    intro hpc
    have hleft : Inv (s.setPc g .unregister) :=
      h.leave (.inr (.inr (.inr ⟨rfl, by rw [hpc]; rfl⟩)))
    exact hleft.congr rfl rfl
  simp only [StreamRegistry.activateServer] at hnext
  split at hnext
  · obtain ⟨⟨hpc, -, hidle⟩, rfl⟩ := enabledIf_eq_some hnext
    split
    · split
      next hnone =>
        exact ((hgo _ (.inl rfl) hpc).activated_first hnone).congr rfl rfl
      next old hold =>
        refine ((hgo _ (.inr rfl) hpc).activated hidle fun old' hold' => ?_).congr rfl rfl
        exact decide_eq_true (Option.some.inj (hold.symm.trans hold'))
    · exact hrefuse hpc
  · obtain ⟨hpc, rfl⟩ := enabledIf_eq_some hnext
    split
    next hnone => exact (hgo _ (.inl rfl) hpc).activated_first hnone
    next => exact hrefuse hpc

theorem stepHandler (h : Inv s) (hstep : HandlerStep s g s') : Inv s' := by
  have hok := h.ok g
  cases hstep with
  | move pc henv hhandlers hshape hid hserved =>
    refine (h.setPc (hshape hok.shape) hid fun hpc hlisted => ?_).congr henv hhandlers
    rcases hserved hpc hok.shape hlisted with hactive | hbefore
    · exact .inl hactive
    · exact hok.watched hbefore hlisted
  | register hpc hmap => exact h.register hpc hmap
  | remove hid hserver hident hshape hout =>
    refine h.remove hid
      ⟨hshape hok.shape, fun _ => ?_, fun hpc hlisted => ?_, fun hpc hlisted => ?_⟩
      hserver hident hout
    · rw [hserver, hident]
      exact hok.fresh hid
    · cases (hout hpc).symm.trans hlisted
    · have hidentified := Pc.identified_of_served hpc
      cases (hout hidentified).symm.trans hlisted
  | close => exact (h.closeStream g).leave (.inr (.inr (.inl rfl)))

theorem stepCloser (h : Inv s) (hstep : CloserStep s c s') : Inv s' := by
  cases hstep with
  | take hc hmap => exact h.take hc hmap
  | close hc =>
    refine (h.closeStream _).setCloser (fun v hcomes => ?_) ?_
    · rw [show (s.closeStream _).closers c = _ from hc] at hcomes
      cases hcomes
    · intro v entries caller hc' entry hmem
      obtain ⟨rfl, rfl, -⟩ := Closer.closing.inj (hc.symm.trans hc')
      rcases List.mem_cons.mp hmem with rfl | hmem
      · exact .inl (Function.update_self ..)
      · exact .inr ⟨_, _, rfl, hmem⟩
  | move closer ht hstreams hclosing hcloser henv hhandlers =>
    have hgo : ∀ {t : State}, Inv t → t.closers = s.closers → t.streamMap = s.streamMap →
        Inv (t.setCloser c closer) := by
      intro t hinv hclosers hmaps
      refine hinv.setCloser (fun v hc => .inl ?_) fun v entries caller hc entry hmem => ?_
      · rw [hmaps]
        exact hstreams v (hclosers ▸ hc)
      · rw [hclosing v entries caller (hclosers ▸ hc)] at hmem
        cases hmem
    rcases ht with rfl | ⟨g, rfl⟩
    · exact (hgo h rfl rfl).congr henv hhandlers
    · exact (hgo (h.closeStream g) rfl rfl).congr henv hhandlers

theorem next (h : Inv s) {attachable enableForwardings : Bool} {l : Label}
    (hnext : next attachable enableForwardings s l = some s') : Inv s' := by
  cases l with
  | stream g v =>
    obtain ⟨hpc, rfl⟩ := enabledIf_eq_some hnext
    have hshape := (h.ok g).shape
    rw [Handler.Shape, hpc] at hshape
    exact h.setHandler (.of_unidentified hshape rfl) nofun
  | command g command => exact h.recvCommand hnext
  | handler g ok => exact h.stepHandler (stepHandler_cases hnext)
  | activate g c ok => exact h.activateServer hnext
  | go c =>
    obtain ⟨v, hc, rfl⟩ := startCloser_cases hnext
    exact h.setCloser (fun v' hcomes => .inr (by rwa [hc] at hcomes)) (by simp [hc])
  | close c v =>
    obtain ⟨hidle, rfl⟩ := enabledIf_eq_some hnext
    exact h.setCloser (by simp [hidle, Closer.comes]) (by simp [hidle])
  | closer c => exact h.stepCloser (stepCloser_cases hnext)

theorem reachable {attachable enableForwardings : Bool}
    (hs : (serverRuns attachable enableForwardings).Reachable s) : Inv s :=
  System.invariant_ofStep start (fun _ _ _ h => h.next) hs

end Inv

/-- **Served by the active server**: an open stream that is being served, the bus apart, belongs
    to the active server, or a goroutine is about to take the streams of its server or about to be
    started for it, or a goroutine has this one among those it closes. -/
theorem served_by_active {attachable enableForwardings : Bool} {s : State}
    (hs : (serverRuns attachable enableForwardings).Reachable s) {g : Nat}
    (hpc : (s.handlers g).pc = .handling) (hcommand : (s.handlers g).command ≠ .bus)
    (hopen : s.closed g = false) :
    s.activeSshUdpServer = some (s.handlers g).server ∨
    (∃ c, s.closers c = .starting (s.handlers g).server ∨
      ∃ caller, s.closers c = .streams (s.handlers g).server caller) ∨
    ∃ c entries caller, s.closers c = .closing (s.handlers g).server entries caller ∧
      ((s.handlers g).id, g) ∈ entries := by
  have hok := (Inv.reachable hs).ok g
  have hshape := hok.shape
  rw [Handler.Shape, hpc] at hshape
  have hlisted : (s.handlers g).unlisted = false :=
    Bool.eq_false_iff.mpr fun hunlisted => hcommand (hshape.mp hunlisted)
  rcases hok.watched (by rw [hpc]; rfl) hlisted with hactive | hnil | hcloser
  · exact .inl hactive
  · -- the map is nil, so the stream was taken
    rcases hok.tracked (by rw [hpc]; rfl) hlisted with ⟨m, hmap, -⟩ | ⟨-, hclosed | hpending⟩
    · cases hnil.symm.trans hmap
    · cases hopen.symm.trans hclosed
    · exact .inr (.inr hpending)
  · obtain ⟨c, hcomes⟩ := hcloser
    exact .inr (.inl ⟨c, (Closer.comes_eq_true _ _).mp hcomes⟩)

/-- A stream is served, a second client attaches, and its goroutine has taken the streams. -/
def takenOver : List Label :=
  [.stream 0 0, .handler 0 true, .command 0 (some .bus), .handler 0 true, .handler 0 true,
    .handler 0 true, .activate 0 0 true, .handler 0 true, .handler 0 true,
    .stream 1 0, .handler 1 true, .command 1 (some .session), .handler 1 true, .handler 1 true,
    .stream 2 1, .handler 2 true, .command 2 (some .bus), .handler 2 true, .handler 2 true,
    .handler 2 true, .activate 2 7 true, .go 7, .closer 7, .handler 1 true]

/-- The stream of the first client is served after the second one has become active, and a
    goroutine is on its way to close it. -/
theorem takenOver_served :
    ∃ s, (serverRuns true true).Reachable s ∧ (s.handlers 1).pc = .handling ∧
      s.activeSshUdpServer = some 1 ∧
      ((∃ c, s.closers c = .starting 0 ∨ ∃ caller, s.closers c = .streams 0 caller) ∨
        ∃ c entries caller, s.closers c = .closing 0 entries caller ∧
          ((s.handlers 1).id, 1) ∈ entries) := by
  obtain ⟨s, hrun, hpc, hcommand, hopen, hserver, hactive⟩ :
      ∃ s, runLabels (next true true) start takenOver = some s ∧
        (s.handlers 1).pc = .handling ∧ (s.handlers 1).command ≠ .bus ∧ s.closed 1 = false ∧
        (s.handlers 1).server = 0 ∧ s.activeSshUdpServer = some 1 :=
    exists_of_runLabels (by decide +kernel)
  have hs : (serverRuns true true).Reachable s := .of_runLabels (fun _ _ _ h => h) (.init rfl) hrun
  have hserved := served_by_active hs hpc hcommand hopen
  rw [hserver, hactive] at hserved
  exact ⟨s, hs, hpc, hactive, hserved.resolve_left (by decide)⟩

end StreamRegistry
