import Tssh.Session.PendingInput
import Mathlib.Data.List.Perm.Basic
import Mathlib.Logic.Function.Basic

/-! # Discard Markers Between Server and Clients

    The discard marker is a protocol between two ends that do not see each other's sessions:

    * `enablePendingInputDiscard` on the server marks the sessions in **its** `sessionMap`
      when a client reconnects, and a goroutine of its own sends the marker on the client's
      bus;
    * `handleDiscardEvent` on the client stores the marker in the objects in **its**
      `sessionMap` when the message arrives;
    * the client's `forwardInput` sends a stored marker in front of the next input, and the
      server's `forwardInput` looks for it in the input of the session.

    Client `k` and its server `k` have the same number.  Sections under a lock are one step:
    `activateServer` with its detaching, the part of `attachSession` under `attachMutex`, and
    every section under one of the two session mutexes.  The server's `forwardInput` reads
    its stream, loads the server pointer and deals with the input in three steps; the last
    one contains the load of the marker and the `CompareAndSwap` at the end, since a marker
    that is stored between them is there afterwards just as one that is stored after both.
    The client's `forwardInput` is the only one that writes to its stream, so that taking the
    marker and writing it with the input is one step.

    What the environment decides is free: ids, the moments at which programs start and end,
    how much a read returns, and which of the waiting goroutines sends its marker next.
    Input bytes are tagged with the number of the marker they are part of, or with `none` if
    the user typed them.
-/

open Go LTS Pending

namespace Markers

/-! ## State -/

/-- Input bytes, each with the number of the marker it is part of. -/
abbrev Cells := List (Cell (Option Nat))

/-- The bytes of a marker, and bytes that the user typed. -/
def markerCells (m : Marker) : Cells := m.bytes.map fun b => ⟨b, some m.no⟩

def userCells (buf : Bytes) : Cells := buf.map fun b => ⟨b, none⟩

/-- What the server has done for an object of a client: nothing (`opened` by `NewSession`),
    or its start message is on the way (`new`, `attach`), or `attachSession` has looked the
    session up, or the object serves a session. -/
inductive Request where
  | opened
  | new
  | attach
  | found (sess : Nat)
  | serves (sess : Nat)
  deriving DecidableEq, Repr

/-- A `SshUdpSession` of a client.  `running` is whether its `forwardInput` runs, and `stream`
    are the bytes it has written that the server has not read. -/
structure Object where
  client : Nat
  id : Nat
  request : Request
  running : Bool
  discardMarker : Option Marker
  stream : Cells
  deriving Repr

/-- Where the server is with the input of a session: the program starts, the client is told
    so, `forwardInput` is about to read, has read, has found the session attached, or has
    returned. -/
inductive Reader where
  | starting
  | acked
  | idle
  | got (buf : Cells)
  | loaded (buf : Cells)
  | stopped
  deriving DecidableEq, Repr

/-- The input that the reader has in its hands. -/
def Reader.buf : Reader → Cells
  | .got buf | .loaded buf => buf
  | _ => []

@[simp] theorem Reader.buf_acked : Reader.acked.buf = [] := rfl

@[simp] theorem Reader.buf_idle : Reader.idle.buf = [] := rfl

@[simp] theorem Reader.buf_got (buf : Cells) : (Reader.got buf).buf = buf := rfl

@[simp] theorem Reader.buf_loaded (buf : Cells) : (Reader.loaded buf).buf = buf := rfl

/-- After a round of `forwardInput` the reader holds nothing, whether it goes on or not. -/
@[simp] theorem Reader.buf_after (ok : Bool) :
    (if ok then Reader.idle else Reader.stopped).buf = [] := by
  cases ok <;> rfl

/-- A `sessionContext` of the server.  `object` is the client object at the other end of
    `ioStream`; `connected` is whether there is one. -/
structure Session where
  id : Nat
  server : Option Nat
  object : Nat
  connected : Bool
  closed : Bool
  reader : Reader
  input : Input (Option Nat)
  deriving Repr

/-- The input of a session that is on the way: in its buffer, in the hands of its reader, and
    in the stream of its object. -/
def Session.way (c : Session) (o : Object) : Cells :=
  c.input.discardedBuffer ++ (c.reader.buf ++ o.stream)

/-- Messages on a bus from a server to its client. -/
inductive Event where
  | discard (m : Marker)
  | exit (id : Nat)
  deriving DecidableEq, Repr

/-- Both ends.  `outbox` are the goroutines that have not sent their marker yet, `bus` the
    messages under way, both with the client they are for.  `bound` is whether the server of
    a client is reached when the client reconnects (`client.server`), and `keep` its
    `keepPendingInput`. -/
structure State where
  objects : Nat → Object
  objectCount : Nat
  clientMap : Nat → Nat → Option Nat
  sessions : Nat → Session
  sessionCount : Nat
  sessionMap : List Nat
  active : Option Nat
  serving : Nat → Bool
  bound : Nat → Bool
  keep : Nat → Bool
  index : UInt32
  count : Nat
  outbox : List (Nat × Marker)
  bus : List (Nat × Event)

def start : State where
  objects := fun _ => ⟨0, 0, .opened, false, none, []⟩
  objectCount := 0
  clientMap := fun _ _ => none
  sessions := fun _ => ⟨0, none, 0, false, false, .starting, ⟨none, [], []⟩⟩
  sessionCount := 0
  sessionMap := []
  active := none
  serving := fun _ => false
  bound := fun _ => false
  keep := fun _ => false
  index := 0
  count := 0
  outbox := []
  bus := []

/-- `sessionMap[id]` of the server. -/
def State.find (s : State) (id : Nat) : Option Nat :=
  s.sessionMap.find? fun x => (s.sessions x).id == id

/-- The object is in the `sessionMap` of its client. -/
def State.inMap (s : State) (j : Nat) : Prop :=
  s.clientMap (s.objects j).client (s.objects j).id = some j

instance (s : State) (j : Nat) : Decidable (s.inMap j) := by
  unfold State.inMap
  infer_instance

/-- The marker of a bus message. -/
def Event.marker : Event → Option Marker
  | .discard m => some m
  | .exit _ => none

/-- The markers that are still to be sent or under way to client `k`. -/
def State.pending (s : State) (k : Nat) : List Marker :=
  (s.bus.filter (·.1 == k)).filterMap (·.2.marker) ++
    (s.outbox.filter (·.1 == k)).map (·.2)

/-! ## Changes of the state -/

def State.setObject (s : State) (j : Nat) (o : Object) : State :=
  { s with objects := Function.update s.objects j o }

def State.setSession (s : State) (x : Nat) (c : Session) : State :=
  { s with sessions := Function.update s.sessions x c }

/-- A session that is detached (`detachAllSessions`); the buffer stays as it is. -/
def Session.detach (c : Session) : Session :=
  { c with server := none, connected := false
           input := { c.input with discardMarker := none } }

/-- `activateServer`. -/
def State.activate (s : State) (k : Nat) : State :=
  { s with
    active := some k
    serving := Function.update s.serving k true
    bound := Function.update s.bound k true
    sessions := fun x => if x ∈ s.sessionMap then (s.sessions x).detach else s.sessions x }

/-- `enablePendingInputDiscard` of server `k`. -/
def State.enablePendingInputDiscard (s : State) (k : Nat) : State :=
  if s.keep k ∨ s.sessionMap = [] then s
  else
    let index := getNextDiscardMarkerIndex s.index
    let marker : Marker := ⟨s.count, index⟩
    { s with
      index := index
      count := s.count + 1
      sessions := fun x =>
        if x ∈ s.sessionMap then
          { s.sessions x with
            input := { (s.sessions x).input with discardMarker := some marker } }
        else s.sessions x
      outbox := s.outbox ++ [(k, marker)] }

/-- What client `k` does with a bus message: `handleDiscardEvent`, `handleExitEvent`. -/
def State.handle (s : State) (k : Nat) : Event → State
  | .discard m =>
    { s with objects := fun j =>
        if (s.objects j).client = k ∧ s.inMap j then
          { s.objects j with discardMarker := some m }
        else s.objects j }
  | .exit id =>
    let map := Function.update (s.clientMap k) id none
    { s with clientMap := Function.update s.clientMap k map }

/-- `Attach` on the client: the object moves to another id. -/
def State.moveObject (s : State) (j id : Nat) : State :=
  let o := s.objects j
  let map := Function.update (s.clientMap o.client) id (some j)
  { s.setObject j { o with id := id, request := .attach } with
    clientMap := Function.update s.clientMap o.client (Function.update map o.id none) }

/-! ## The system -/

/-- The first group are steps of the clients, the second of the server and its sessions, the
    third of the bus, the last of the input. -/
inductive Label where
  | newSession (k id : Nat)
  | startSession (j : Nat)
  | attachTo (j id : Nat)
  | activate (k : Nat)
  | closeServer (k : Nat)
  | setKeep (k : Nat) (keep : Bool)
  | reconnect (k : Nat)
  | create (j : Nat)
  | ack (x : Nat)
  | connect (x : Nat)
  | lookup (j : Nat)
  | attach (j : Nat)
  | close (x : Nat) (told : Bool)
  | remove (id : Nat)
  | send (i : Nat)
  | sendFails (i : Nat)
  | recv (k : Nat)
  | input (j : Nat) (buf : Bytes)
  | read (x n : Nat)
  | loadServer (x : Nat)
  | forward (x accepts : Nat)
  deriving DecidableEq, Repr

/-- Take a step if its guard holds. -/
def when (guard : Prop) [Decidable guard] (s : State) : Option State :=
  if guard then some s else none

def next (s : State) : Label → Option State
  -- `NewSession`: the stream was opened while the server was active
  | .newSession k id =>
    let o : Object := ⟨k, id, .opened, false, none, []⟩
    when (s.serving k)
      { s.setObject s.objectCount o with
        objectCount := s.objectCount + 1
        clientMap := Function.update s.clientMap k
          (Function.update (s.clientMap k) id (some s.objectCount)) }
  | .startSession j =>
    let o := s.objects j
    when (j < s.objectCount ∧ o.request = .opened) (s.setObject j { o with request := .new })
  | .attachTo j id =>
    when (j < s.objectCount ∧ (s.objects j).request = .opened) (s.moveObject j id)
  | .activate k => some (s.activate k)
  | .closeServer k => some { s with bound := Function.update s.bound k false }
  | .setKeep k keep => some { s with keep := Function.update s.keep k keep }
  -- `onNewClientConn`
  | .reconnect k => when (s.bound k) (s.enablePendingInputDiscard k)
  -- `newSessionContext`
  | .create j =>
    let o := s.objects j
    let c : Session := ⟨o.id, some o.client, j, false, false, .starting, ⟨none, [], []⟩⟩
    when (o.request = .new ∧ s.find o.id = none)
      { (s.setObject j { o with request := .serves s.sessionCount }).setSession s.sessionCount c with
        sessionCount := s.sessionCount + 1
        sessionMap := s.sessionMap ++ [s.sessionCount] }
  -- the program has started and `sendSuccess` tells it to the client
  | .ack x =>
    let c := s.sessions x
    when (x < s.sessionCount ∧ c.reader = .starting)
      ((s.setObject c.object { s.objects c.object with running := true }).setSession x
        { c with reader := .acked })
  -- `forwardIO`
  | .connect x =>
    let c := s.sessions x
    when (c.reader = .acked) (s.setSession x { c with reader := .idle, connected := true })
  -- `attachSession`, before it takes `attachMutex`
  | .lookup j =>
    let o := s.objects j
    match s.find o.id with
    | none => none
    | some x =>
      when (o.request = .attach ∧ (s.sessions x).closed = false)
        (s.setObject j { o with request := .found x })
  -- and after that, if its checks succeed
  | .attach j =>
    let o := s.objects j
    match o.request with
    | .found x =>
      let c := s.sessions x
      when (s.active = some o.client ∧ c.server = none ∧ c.reader ≠ .starting ∧
          c.reader ≠ .acked)
        ((s.setObject j { o with request := .serves x, running := true }).setSession x
          { c with server := some o.client, object := j, connected := true })
    | _ => none
  -- `Close`; `told` is whether its exit message could be sent
  | .close x told =>
    let c := s.sessions x
    when (x < s.sessionCount ∧ c.closed = false)
      { s.setSession x { c with closed := true } with
        bus := match told, c.server with
          | true, some k => s.bus ++ [(k, .exit c.id)]
          | _, _ => s.bus }
  -- the first part of `closeSession`
  | .remove id => some { s with sessionMap := s.sessionMap.filter fun x => (s.sessions x).id != id }
  | .send i =>
    match s.outbox[i]? with
    | some (k, m) => some { s with outbox := s.outbox.eraseIdx i, bus := s.bus ++ [(k, .discard m)] }
    | none => none
  | .sendFails i => when (i < s.outbox.length) { s with outbox := s.outbox.eraseIdx i }
  | .recv k =>
    match s.bus.find? (·.1 == k) with
    | some (_, e) => some { s.handle k e with bus := s.bus.eraseP (·.1 == k) }
    | none => none
  -- the client's `forwardInput`
  | .input j buf =>
    let o := s.objects j
    let marker := match o.discardMarker with
      | some m => markerCells m
      | none => []
    when (o.running = true ∧ buf ≠ [])
      (s.setObject j
        { o with discardMarker := none, stream := o.stream ++ (marker ++ userCells buf) })
  -- the server's `forwardInput`
  | .read x n =>
    let c := s.sessions x
    let o := s.objects c.object
    when (x < s.sessionCount ∧ c.reader = .idle ∧ c.connected = true ∧ 0 < n ∧ o.stream ≠ [])
      ((s.setObject c.object { o with stream := o.stream.drop n }).setSession x
        { c with reader := .got (o.stream.take n) })
  | .loadServer x =>
    let c := s.sessions x
    match c.reader with
    | .got buf =>
      some (s.setSession x { c with reader := if c.server = none then .idle else .loaded buf })
    | _ => none
  | .forward x accepts =>
    let c := s.sessions x
    match c.reader with
    | .loaded buf =>
      let r := forwardInput c.input buf accepts
      some (s.setSession x { c with input := r.1, reader := if r.2.2 then .idle else .stopped })
    | _ => none

/-- All interleavings of the clients, the server, the bus and the input. -/
def markers : System State Label := .ofStep start next

/-- Client `1` opens a session with id `1`. -/
def oneSession : List Label :=
  [.activate 1, .newSession 1 1, .startSession 0, .create 0, .ack 0, .connect 0]

/-! ## Small lemmas -/

section lemmas

variable {s : State}

theorem when_eq_some {guard : Prop} [Decidable guard] {s s' : State}
    (h : when guard s = some s') : guard ∧ s' = s := by
  unfold when at h
  split at h
  · next hg => exact ⟨hg, (Option.some.inj h).symm⟩
  · cases h

/-- What the steps that look something up first have found. -/
theorem next_lookup {j : Nat} {s' : State} (h : next s (.lookup j) = some s') :
    ∃ x, s.find (s.objects j).id = some x ∧ (s.objects j).request = .attach ∧
      (s.sessions x).closed = false ∧
      s' = s.setObject j { s.objects j with request := .found x } := by
  simp only [next] at h
  split at h
  · cases h
  · next x hfind =>
    obtain ⟨⟨hreq, hclosed⟩, rfl⟩ := when_eq_some h
    exact ⟨x, hfind, hreq, hclosed, rfl⟩

theorem next_attach {j : Nat} {s' : State} (h : next s (.attach j) = some s') :
    ∃ x, (s.objects j).request = .found x ∧
      (s.active = some (s.objects j).client ∧ (s.sessions x).server = none ∧
        (s.sessions x).reader ≠ .starting ∧ (s.sessions x).reader ≠ .acked) ∧
      s' = (s.setObject j { s.objects j with request := .serves x, running := true }).setSession x
        { s.sessions x with
          server := some (s.objects j).client, object := j, connected := true } := by
  simp only [next] at h
  split at h
  · next x hreq =>
    obtain ⟨hguard, rfl⟩ := when_eq_some h
    exact ⟨x, hreq, hguard, rfl⟩
  · cases h

theorem next_send {i : Nat} {s' : State} (h : next s (.send i) = some s') :
    ∃ k m, s.outbox[i]? = some (k, m) ∧
      s' = { s with outbox := s.outbox.eraseIdx i, bus := s.bus ++ [(k, .discard m)] } := by
  simp only [next] at h
  split at h
  · next k m hi =>
    cases h
    exact ⟨k, m, hi, rfl⟩
  · cases h

theorem next_recv {k : Nat} {s' : State} (h : next s (.recv k) = some s') :
    ∃ k' e, s.bus.find? (·.1 == k) = some (k', e) ∧
      s' = { s.handle k e with bus := s.bus.eraseP (·.1 == k) } := by
  simp only [next] at h
  split at h
  · next k' e hfind =>
    cases h
    exact ⟨k', e, hfind, rfl⟩
  · cases h

theorem next_loadServer {x : Nat} {s' : State} (h : next s (.loadServer x) = some s') :
    ∃ buf, (s.sessions x).reader = .got buf ∧
      s' = s.setSession x { s.sessions x with
        reader := if (s.sessions x).server = none then .idle else .loaded buf } := by
  simp only [next] at h
  split at h
  · next buf hr =>
    cases h
    exact ⟨buf, hr, rfl⟩
  · cases h

theorem next_forward {x accepts : Nat} {s' : State} (h : next s (.forward x accepts) = some s') :
    ∃ buf, (s.sessions x).reader = .loaded buf ∧
      s' = s.setSession x { s.sessions x with
        input := (forwardInput (s.sessions x).input buf accepts).1
        reader := if (forwardInput (s.sessions x).input buf accepts).2.2 then .idle
          else .stopped } := by
  simp only [next] at h
  split at h
  · next buf hr =>
    cases h
    exact ⟨buf, hr, rfl⟩
  · cases h

@[simp] theorem setObject_self (j : Nat) (o : Object) : (s.setObject j o).objects j = o := by
  simp [State.setObject]

@[simp] theorem setObject_ne {j i : Nat} (h : i ≠ j) (o : Object) :
    (s.setObject j o).objects i = s.objects i := by
  simp [State.setObject, h]

@[simp] theorem setObject_sessions (j : Nat) (o : Object) :
    (s.setObject j o).sessions = s.sessions := rfl

@[simp] theorem setSession_self (x : Nat) (c : Session) :
    (s.setSession x c).sessions x = c := by
  simp [State.setSession]

@[simp] theorem setSession_ne {x y : Nat} (h : y ≠ x) (c : Session) :
    (s.setSession x c).sessions y = s.sessions y := by
  simp [State.setSession, h]

@[simp] theorem setSession_objects (x : Nat) (c : Session) :
    (s.setSession x c).objects = s.objects := rfl

/-- The first element that meets the condition, and the list without it. -/
theorem split_of_find {α : Type} {p : α → Bool} {l : List α} {a : α} (h : l.find? p = some a) :
    ∃ as bs, l = as ++ a :: bs ∧ l.eraseP p = as ++ bs ∧ p a = true ∧ ∀ b ∈ as, p b = false := by
  obtain ⟨hp, as, bs, rfl, hno⟩ := List.find?_eq_some_iff_append.mp h
  have hnone : ∀ b ∈ as, p b = false := fun b hb => by simpa using hno b hb
  refine ⟨as, bs, rfl, ?_, hp, hnone⟩
  rw [List.eraseP_append_right _ (fun b hb => by simp [hnone b hb]), List.eraseP_cons_of_pos hp]

theorem perm_of_find {α : Type} {p : α → Bool} {l : List α} {a : α} (h : l.find? p = some a) :
    l.Perm (a :: l.eraseP p) := by
  obtain ⟨as, bs, hl, herase, -, -⟩ := split_of_find h
  rw [herase, hl]
  exact List.perm_middle

@[simp] theorem length_markerCells (m : Marker) : (markerCells m).length = 8 := by
  simp [markerCells]

theorem tag_markerCells {m : Marker} {c : Cell (Option Nat)} (h : c ∈ markerCells m) :
    c.tag = some m.no := by
  obtain ⟨b, -, rfl⟩ := List.mem_map.mp h
  rfl

theorem tag_userCells {buf : Bytes} {c : Cell (Option Nat)} (h : c ∈ userCells buf) :
    c.tag = none := by
  obtain ⟨b, -, rfl⟩ := List.mem_map.mp h
  rfl

end lemmas

/-! ## Objects and the sessions they serve -/

/-- A session and the object it is connected to know each other; an object that does not serve
    a session has not sent any input. -/
structure Wiring (s : State) : Prop where
  serves : ∀ x, x < s.sessionCount → (s.objects (s.sessions x).object).request = .serves x
  attached : ∀ x k, (s.sessions x).server = some k →
    x < s.sessionCount ∧ (s.objects (s.sessions x).object).client = k
  map : ∀ x ∈ s.sessionMap, x < s.sessionCount
  known : ∀ j, (s.objects j).request ≠ .opened → j < s.objectCount
  found : ∀ j x, (s.objects j).request = .found x → x < s.sessionCount
  idle : ∀ j, (∀ x, (s.objects j).request ≠ .serves x) → (s.objects j).running = false
  quiet : ∀ j, (s.objects j).running = false → (s.objects j).stream = []

variable {s s' : State}

theorem start_wiring : Wiring start where
  serves := fun x hx => absurd hx (Nat.not_lt_zero x)
  attached := fun _ _ h => absurd h (Option.some_ne_none _).symm
  map := fun _ h => absurd h List.not_mem_nil
  known := fun _ h => absurd rfl h
  found := fun _ _ h => absurd h (by simp [start])
  idle := fun _ _ => rfl
  quiet := fun _ _ => rfl

variable {j x : Nat}

section

variable (h : Wiring s)
include h

/-- The object of a created session is known. -/
theorem Wiring.object_lt (hx : x < s.sessionCount) : (s.sessions x).object < s.objectCount := by
  apply h.known
  rw [h.serves x hx]
  exact Request.noConfusion

/-- An object that has not been served yet has sent nothing. -/
theorem Wiring.stream_nil (hj : ∀ x, (s.objects j).request ≠ .serves x) :
    (s.objects j).stream = [] :=
  h.quiet j (h.idle j hj)

/-- A step that leaves the objects alone, except for their markers, and at most detaches or
    removes sessions. -/
theorem Wiring.frame (hobjects : ∀ j, ∃ m, s'.objects j = { s.objects j with discardMarker := m })
    (hcount : s'.objectCount = s.objectCount)
    (hsessions : ∀ x, (s'.sessions x).object = (s.sessions x).object ∧
      ((s'.sessions x).server = (s.sessions x).server ∨ (s'.sessions x).server = none))
    (hsessionCount : s'.sessionCount = s.sessionCount)
    (hmap : ∀ x ∈ s'.sessionMap, x ∈ s.sessionMap) : Wiring s' := by
  constructor
  · intro x hx
    obtain ⟨m, hm⟩ := hobjects (s.sessions x).object
    rw [(hsessions x).1, hm]
    exact h.serves x (hsessionCount ▸ hx)
  · intro x k hk
    obtain ⟨m, hm⟩ := hobjects (s.sessions x).object
    rcases (hsessions x).2 with hserver | hserver
    · rw [hsessionCount, (hsessions x).1, hm]
      exact h.attached x k (hserver ▸ hk)
    · rw [hserver] at hk
      cases hk
  · intro x hx
    rw [hsessionCount]
    exact h.map x (hmap x hx)
  · intro j hj
    obtain ⟨m, hm⟩ := hobjects j
    rw [hm] at hj
    rw [hcount]
    exact h.known j hj
  · intro j x hj
    obtain ⟨m, hm⟩ := hobjects j
    rw [hm] at hj
    rw [hsessionCount]
    exact h.found j x hj
  · intro j hj
    obtain ⟨m, hm⟩ := hobjects j
    rw [hm] at hj ⊢
    exact h.idle j hj
  · intro j hj
    obtain ⟨m, hm⟩ := hobjects j
    rw [hm] at hj ⊢
    exact h.quiet j hj

/-- The same for a step that leaves the objects alone altogether. -/
theorem Wiring.frame_sessions (hobjects : s'.objects = s.objects)
    (hcount : s'.objectCount = s.objectCount)
    (hsessions : ∀ x, (s'.sessions x).object = (s.sessions x).object ∧
      ((s'.sessions x).server = (s.sessions x).server ∨ (s'.sessions x).server = none))
    (hsessionCount : s'.sessionCount = s.sessionCount)
    (hmap : ∀ x ∈ s'.sessionMap, x ∈ s.sessionMap) : Wiring s' := by
  refine h.frame ?_ hcount hsessions hsessionCount hmap
  intro j
  exact ⟨(s.objects j).discardMarker, by rw [hobjects]⟩

/-- One object changes. -/
theorem Wiring.setObject {o : Object}
    (hclient : (s.objects j).request ≠ .opened → o.client = (s.objects j).client)
    (hserves : ∀ x, (s.objects j).request = .serves x → o.request = .serves x)
    (hknown : o.request ≠ .opened → j < s.objectCount)
    (hfound : ∀ x, o.request = .found x → x < s.sessionCount)
    (hidle : (∀ x, o.request ≠ .serves x) → o.running = false)
    (hquiet : o.running = false → o.stream = []) : Wiring (s.setObject j o) := by
  constructor
  · intro x hx
    have hx' := h.serves x hx
    by_cases hj : (s.sessions x).object = j
    · rw [hj] at hx'
      simp only [setObject_sessions, hj, setObject_self]
      exact hserves x hx'
    · simpa only [setObject_sessions, setObject_ne hj] using hx'
  · intro x k hk
    obtain ⟨hx, hclient'⟩ := h.attached x k hk
    have hx' := h.serves x hx
    refine ⟨hx, ?_⟩
    by_cases hj : (s.sessions x).object = j
    · rw [hj] at hclient' hx'
      have hne : (s.objects j).request ≠ .opened := by
        rw [hx']
        exact Request.noConfusion
      simp only [setObject_sessions, hj, setObject_self]
      exact (hclient hne).trans hclient'
    · simpa only [setObject_sessions, setObject_ne hj] using hclient'
  · exact h.map
  · intro i hi
    by_cases hj : i = j
    · rw [hj, setObject_self] at hi
      rw [hj]
      exact hknown hi
    · rw [setObject_ne hj] at hi
      exact h.known i hi
  · intro i x hi
    by_cases hj : i = j
    · rw [hj, setObject_self] at hi
      exact hfound x hi
    · rw [setObject_ne hj] at hi
      exact h.found i x hi
  · intro i hi
    by_cases hj : i = j
    · rw [hj, setObject_self] at hi ⊢
      exact hidle hi
    · rw [setObject_ne hj] at hi ⊢
      exact h.idle i hi
  · intro i hi
    by_cases hj : i = j
    · rw [hj, setObject_self] at hi ⊢
      exact hquiet hi
    · rw [setObject_ne hj] at hi ⊢
      exact h.quiet i hi

/-- One session changes; its object serves it. -/
theorem Wiring.setSession {c : Session}
    (hserves : x < s.sessionCount → (s.objects c.object).request = .serves x)
    (hattached : ∀ k, c.server = some k →
      x < s.sessionCount ∧ (s.objects c.object).client = k) : Wiring (s.setSession x c) := by
  refine ⟨?_, ?_, h.map, h.known, h.found, h.idle, h.quiet⟩
  · intro y hy
    by_cases hxy : y = x
    · rw [hxy, setSession_self]
      exact hserves (hxy ▸ hy)
    · rw [setSession_ne hxy]
      exact h.serves y hy
  · intro y k hk
    by_cases hxy : y = x
    · rw [hxy, setSession_self] at hk
      rw [hxy, setSession_self]
      exact hattached k hk
    · rw [setSession_ne hxy] at hk ⊢
      exact h.attached y k hk

/-- A client opens a stream. -/
theorem Wiring.newSession (k id : Nat) (map : Nat → Nat → Option Nat) :
    Wiring { s.setObject s.objectCount ⟨k, id, .opened, false, none, []⟩ with
      objectCount := s.objectCount + 1, clientMap := map } := by
  have hfresh : ¬ (s.objects s.objectCount).request ≠ .opened := by
    intro hne
    exact absurd (h.known _ hne) (Nat.lt_irrefl _)
  have hset : Wiring (s.setObject s.objectCount ⟨k, id, .opened, false, none, []⟩) := by
    apply h.setObject
    · exact fun hne => absurd hne hfresh
    · intro x hx
      rw [hx] at hfresh
      exact absurd Request.noConfusion hfresh
    · exact fun hne => absurd rfl hne
    · intro x hx
      cases hx
    · exact fun _ => rfl
    · exact fun _ => rfl
  refine ⟨hset.serves, hset.attached, hset.map, ?_, hset.found, hset.idle, hset.quiet⟩
  intro j hj
  exact Nat.lt_succ_of_lt (hset.known j hj)

/-- The server inserts a new session. -/
theorem Wiring.create (hj : (s.objects j).request = .new) (c : Session) (hobject : c.object = j)
    (hserver : c.server = some (s.objects j).client) :
    Wiring { (s.setObject j { s.objects j with
        request := .serves s.sessionCount }).setSession s.sessionCount c with
      sessionCount := s.sessionCount + 1
      sessionMap := s.sessionMap ++ [s.sessionCount] } := by
  have hset : Wiring (s.setObject j { s.objects j with request := .serves s.sessionCount }) := by
    apply h.setObject
    · exact fun _ => rfl
    · intro x hx
      rw [hj] at hx
      cases hx
    · exact fun _ => h.known j (by rw [hj]; exact Request.noConfusion)
    · intro x hx
      cases hx
    · exact fun hne => absurd rfl (hne s.sessionCount)
    · exact h.quiet j
  refine ⟨?_, ?_, ?_, hset.known, ?_, hset.idle, hset.quiet⟩
  · intro x hx
    by_cases hnew : x = s.sessionCount
    · simp only [hnew, setSession_self, hobject, setSession_objects, setObject_self]
    · simp only [setSession_ne hnew]
      exact hset.serves x (Nat.lt_of_le_of_ne (Nat.le_of_lt_succ hx) hnew)
  · intro x k hk
    by_cases hnew : x = s.sessionCount
    · simp only [hnew, setSession_self, hserver, Option.some.injEq] at hk
      simp only [hnew, setSession_self, hobject, setSession_objects, setObject_self]
      exact ⟨Nat.lt_succ_self _, hk⟩
    · simp only [setSession_ne hnew] at hk ⊢
      obtain ⟨hx, hclient⟩ := hset.attached x k hk
      exact ⟨Nat.lt_succ_of_lt hx, hclient⟩
  · intro x hx
    rcases List.mem_append.mp hx with hx | hx
    · exact Nat.lt_succ_of_lt (h.map x hx)
    · rw [List.mem_singleton.mp hx]
      exact Nat.lt_succ_self _
  · intro i x hi
    exact Nat.lt_succ_of_lt (hset.found i x hi)

/-- A found session is handed to the object that asked for it. -/
theorem Wiring.attach (hj : (s.objects j).request = .found x) :
    Wiring ((s.setObject j { s.objects j with request := .serves x, running := true }).setSession x
      { s.sessions x with
        server := some (s.objects j).client, object := j, connected := true }) := by
  have hset : Wiring (s.setObject j { s.objects j with request := .serves x, running := true }) := by
    apply h.setObject
    · exact fun _ => rfl
    · intro y hy
      rw [hj] at hy
      cases hy
    · exact fun _ => h.known j (by rw [hj]; exact Request.noConfusion)
    · intro y hy
      cases hy
    · exact fun hne => absurd rfl (hne x)
    · intro hrun
      cases hrun
  apply hset.setSession
  · intro _
    simp only [setObject_self]
  · intro k hk
    simp only [setObject_self]
    exact ⟨h.found j x hj, Option.some.inj hk⟩

/-- A session that changes neither its object nor its server. -/
theorem Wiring.setSession_same {c : Session} (hobject : c.object = (s.sessions x).object)
    (hserver : c.server = (s.sessions x).server) : Wiring (s.setSession x c) := by
  apply h.setSession
  · intro hx
    rw [hobject]
    exact h.serves x hx
  · intro k hk
    rw [hobject]
    exact h.attached x k (hserver ▸ hk)

/-- An object that keeps its client and its request. -/
theorem Wiring.setObject_same {o : Object} (hclient : o.client = (s.objects j).client)
    (hrequest : o.request = (s.objects j).request)
    (hidle : (∀ x, o.request ≠ .serves x) → o.running = false)
    (hquiet : o.running = false → o.stream = []) : Wiring (s.setObject j o) := by
  apply h.setObject (fun _ => hclient) _ _ _ hidle hquiet
  · intro x hx
    rw [hrequest, hx]
  · intro hne
    exact h.known j (hrequest ▸ hne)
  · intro x hx
    exact h.found j x (hrequest ▸ hx)

/-- An object that was not served and gets another request. -/
theorem Wiring.setRequest {o : Object} (hlt : j < s.objectCount)
    (hold : ∀ x, (s.objects j).request ≠ .serves x) (hclient : o.client = (s.objects j).client)
    (hrunning : o.running = (s.objects j).running) (hstream : o.stream = (s.objects j).stream)
    (hfound : ∀ x, o.request = .found x → x < s.sessionCount) : Wiring (s.setObject j o) := by
  apply h.setObject (fun _ => hclient) _ (fun _ => hlt) hfound
  · intro _
    rw [hrunning]
    exact h.idle j hold
  · intro _
    rw [hstream]
    exact h.stream_nil hold
  · intro x hx
    exact absurd hx (hold x)

end

theorem mem_of_find {id x : Nat} (h : s.find id = some x) : x ∈ s.sessionMap :=
  List.mem_of_find?_eq_some h

/-- **Step lemma**: every step keeps the wiring. -/
theorem Wiring.next {l : Label} (h : Wiring s) (hn : next s l = some s') : Wiring s' := by
  have hsame : ∀ x, (s.sessions x).object = (s.sessions x).object ∧
      ((s.sessions x).server = (s.sessions x).server ∨ (s.sessions x).server = none) :=
    fun _ => ⟨rfl, .inl rfl⟩
  cases l with
  | newSession k id =>
    obtain ⟨-, rfl⟩ := when_eq_some hn
    exact h.newSession k id _
  | startSession j =>
    obtain ⟨⟨hlt, hreq⟩, rfl⟩ := when_eq_some hn
    -- an object that serves no session yet may change its request
    refine h.setRequest hlt ?_ rfl rfl rfl ?_
    · intro x
      rw [hreq]
      exact Request.noConfusion
    · intro x hx
      cases hx
  | attachTo j id =>
    obtain ⟨⟨hlt, hreq⟩, rfl⟩ := when_eq_some hn
    have hset : Wiring (s.setObject j { s.objects j with id := id, request := .attach }) := by
      refine h.setRequest hlt ?_ rfl rfl rfl ?_
      · intro x
        rw [hreq]
        exact Request.noConfusion
      · intro x hx
        cases hx
    exact hset.frame_sessions rfl rfl hsame rfl (fun _ hx => hx)
  | activate k =>
    cases hn
    -- a session keeps its object when it is detached
    refine h.frame_sessions rfl rfl ?_ rfl (fun _ hx => hx)
    intro x
    simp only [State.activate]
    split
    · exact ⟨rfl, .inr rfl⟩
    · exact hsame x
  | closeServer k | setKeep k keep =>
    cases hn
    exact h.frame_sessions rfl rfl hsame rfl (fun _ hx => hx)
  | reconnect k =>
    obtain ⟨-, rfl⟩ := when_eq_some hn
    unfold State.enablePendingInputDiscard
    split
    · exact h
    -- only markers and buffers change
    · refine h.frame_sessions rfl rfl ?_ rfl (fun _ hx => hx)
      intro x
      dsimp only
      split <;> exact ⟨rfl, .inl rfl⟩
  | create j =>
    obtain ⟨⟨hreq, -⟩, rfl⟩ := when_eq_some hn
    exact h.create hreq _ rfl rfl
  | ack x =>
    obtain ⟨⟨hx, -⟩, rfl⟩ := when_eq_some hn
    -- the object serves `x`, so it may run from now on
    refine Wiring.setSession_same ?_ rfl rfl
    refine h.setObject_same rfl rfl ?_ ?_
    · exact fun hne => absurd (h.serves x hx) (hne x)
    · intro hrun
      cases hrun
  | connect x =>
    obtain ⟨-, rfl⟩ := when_eq_some hn
    exact h.setSession_same rfl rfl
  | lookup j =>
    obtain ⟨x, hx, hreq, -, rfl⟩ := next_lookup hn
    have hlt := h.known j (by rw [hreq]; exact Request.noConfusion)
    refine h.setRequest hlt ?_ rfl rfl rfl ?_
    · intro y
      rw [hreq]
      exact Request.noConfusion
    -- what the lookup found is in the map, and so was created
    · intro y hy
      obtain rfl := Request.found.inj hy
      exact h.map _ (mem_of_find hx)
  | attach j =>
    obtain ⟨x, hreq, -, rfl⟩ := next_attach hn
    exact h.attach hreq
  | close x told =>
    obtain ⟨-, rfl⟩ := when_eq_some hn
    have hset : Wiring (s.setSession x { s.sessions x with closed := true }) :=
      h.setSession_same rfl rfl
    exact hset.frame_sessions rfl rfl (fun _ => ⟨rfl, .inl rfl⟩) rfl (fun _ hx => hx)
  | remove id =>
    cases hn
    refine h.frame_sessions rfl rfl hsame rfl ?_
    exact fun x hx => (List.mem_filter.mp hx).1
  | send i =>
    obtain ⟨k, m, -, rfl⟩ := next_send hn
    exact h.frame_sessions rfl rfl hsame rfl (fun _ hx => hx)
  | sendFails i =>
    obtain ⟨-, rfl⟩ := when_eq_some hn
    exact h.frame_sessions rfl rfl hsame rfl (fun _ hx => hx)
  | recv k =>
    obtain ⟨k', e, he, rfl⟩ := next_recv hn
    cases e with
    | exit id => exact h.frame_sessions rfl rfl hsame rfl (fun _ hx => hx)
    | discard m =>
      -- the objects in the client's map store the marker, and keep the rest
      refine h.frame ?_ rfl hsame rfl (fun _ hx => hx)
      intro j
      simp only [State.handle]
      split
      · exact ⟨some m, rfl⟩
      · exact ⟨(s.objects j).discardMarker, rfl⟩
  | input j buf =>
    obtain ⟨⟨hrun, -⟩, rfl⟩ := when_eq_some hn
    refine h.setObject_same rfl rfl ?_ ?_
    · exact h.idle j
    -- the guard: the object's `forwardInput` runs
    · intro hfalse
      rw [show (s.objects j).running = false from hfalse] at hrun
      cases hrun
  | read x n =>
    obtain ⟨-, rfl⟩ := when_eq_some hn
    refine Wiring.setSession_same ?_ rfl rfl
    refine h.setObject_same rfl rfl ?_ ?_
    · exact h.idle _
    -- a stream that nothing feeds stays empty
    · intro hrun
      have hnil := h.quiet _ hrun
      simp only [hnil, List.drop_nil]
  | loadServer x =>
    obtain ⟨buf, -, rfl⟩ := next_loadServer hn
    exact h.setSession_same rfl rfl
  | forward x accepts =>
    obtain ⟨buf, -, rfl⟩ := next_forward hn
    exact h.setSession_same rfl rfl

/-- **Run lemma**. -/
theorem markers_wiring (hs : markers.Reachable s) : Wiring s :=
  System.invariant_ofStep start_wiring (fun _ _ _ h => h.next) hs

end Markers
