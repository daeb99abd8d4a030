import Mathlib.Data.Finmap
import Mathlib.Logic.Function.Basic

/-! # Attaching on the Client

    `SshUdpSession.Attach` (`tsshd/client.go`) moves a session of the client to the id of a
    session on the server: it stores the session under the new id in `sessionMap`, deletes the
    old id, renames the session, and only then asks the server.  `startSession` can fail in
    three ways after that, and nothing is undone.

    The bus events find their sessions in `sessionMap`: an exit event looks up one id, and a
    discard event goes to all sessions in the map.  After a failed `Attach` the session that
    was stored under the id gets neither, unless the call did not change the map at all
    (`attach_error_undisturbed_iff`).
-/

namespace ClientAttach

/-! ## The client and its sessions -/

structure X11Request where
  SingleConnection : Bool
  AuthProtocol : String
  AuthCookie : String
  ScreenNumber : UInt32
  deriving DecidableEq, Repr

/-- `SshUdpSession`, as far as `Attach` and the bus events use it.  `agent` is whether agent
    forwarding was requested; `exitWG` is the counter of the wait group. -/
structure SshUdpSession where
  id : UInt64
  height : Int
  width : Int
  started : Bool
  x11 : Option X11Request
  agent : Bool
  code : Int
  exitWG : Int
  discardMarker : Option (List UInt8)
  deriving DecidableEq, Repr

/-- `SshUdpClient`.  Sessions are known by number, and `sessionMap` holds the numbers. -/
structure SshUdpClient where
  sessions : Nat → SshUdpSession
  sessionMap : Finmap (fun _ : UInt64 => Nat)
  exitWG : Int

def SshUdpClient.setSession (c : SshUdpClient) (s : Nat) (sess : SshUdpSession) : SshUdpClient :=
  { c with sessions := Function.update c.sessions s sess }

theorem SshUdpClient.setSession_self (c : SshUdpClient) (s : Nat) (sess : SshUdpSession) :
    (c.setSession s sess).sessions s = sess :=
  Function.update_self ..

theorem SshUdpClient.setSession_of_ne (c : SshUdpClient) {s x : Nat} (hx : x ≠ s)
    (sess : SshUdpSession) : (c.setSession s sess).sessions x = c.sessions x :=
  Function.update_of_ne hx ..

/-! ## Starting a session -/

structure X11RequestMessage where
  ChannelType : String
  SingleConnection : Bool
  AuthProtocol : String
  AuthCookie : String
  ScreenNumber : UInt32
  deriving DecidableEq, Repr

/-- `startMessage`, with the fields that `Attach` and `startSession` set. -/
structure StartMessage where
  ID : UInt64
  ErrID : UInt64
  Attach : Bool
  Cols : Int
  Rows : Int
  X11 : Option X11RequestMessage
  Agent : Option String
  deriving DecidableEq, Repr

def kX11ChannelType : String := "x11"

def kAgentChannelType : String := "auth-agent@openssh.com"

def kNoErrorMsg : String := "_TSSHD_NO_ERROR_"

/-- What the stream does with the request: the error of `sendMessage`, and the answer of the
    server or the error of reading it. -/
structure Outcome where
  sendMessage : Option String
  recvMessage : Except String (Int × String)

inductive StartError where
  | started
  | send (err : String)
  | recv (err : String)
  | refused (code : Int) (msg : String)
  deriving DecidableEq, Repr

def recvError (o : Outcome) : Option StartError :=
  match o.recvMessage with
  | .error err => some (.recv err)
  | .ok (code, msg) => if msg ≠ kNoErrorMsg then some (.refused code msg) else none

/-- The message with the requests for X11 and agent forwarding added. -/
def withRequests (sess : SshUdpSession) (msg : StartMessage) : StartMessage :=
  { msg with
    X11 := sess.x11.map fun x11 =>
      { ChannelType := kX11ChannelType
        SingleConnection := x11.SingleConnection
        AuthProtocol := x11.AuthProtocol
        AuthCookie := x11.AuthCookie
        ScreenNumber := x11.ScreenNumber }
    Agent := if sess.agent then some kAgentChannelType else none }

/-- A call on the way out: the client, the request that was sent, and the error. -/
structure Result where
  client : SshUdpClient
  sent : Option StartMessage
  err : Option StartError

def startSession (c : SshUdpClient) (s : Nat) (msg : StartMessage) (o : Outcome) : Result :=
  let sess := c.sessions s
  if sess.started then { client := c, sent := none, err := some .started }
  else
    let c := c.setSession s { sess with started := true }
    let msg := withRequests sess msg
    match o.sendMessage with
    | some err => { client := c, sent := none, err := some (.send err) }
    | none => { client := c, sent := some msg, err := recvError o }

/-- `s.Attach(id)`. -/
def attach (c : SshUdpClient) (s : Nat) (id : UInt64) (o : Outcome) : Result :=
  let sess := c.sessions s
  let sessionMap := (c.sessionMap.insert id s).erase sess.id
  let msg : StartMessage :=
    { ID := id
      ErrID := sess.id
      Attach := true
      Cols := sess.width
      Rows := sess.height
      X11 := none
      Agent := none }
  startSession ({ c with sessionMap := sessionMap }.setSession s { sess with id := id }) s msg o

/-! ## The bus events -/

/-- `handleExitEvent`: the session stored under the id ends and leaves the map. -/
def handleExitEvent (c : SshUdpClient) (id : UInt64) (exitCode : Int) : SshUdpClient :=
  match c.sessionMap.lookup id with
  | none => c
  | some x =>
    let sess := c.sessions x
    { c.setSession x { sess with code := exitCode, exitWG := sess.exitWG - 1 } with
      sessionMap := c.sessionMap.erase id
      exitWG := c.exitWG - 1 }

/-- `handleDiscardEvent`: every session in the map gets the marker. -/
def handleDiscardEvent (c : SshUdpClient) (marker : List UInt8) : SshUdpClient :=
  if marker.length > 0 then
    { c with sessions := fun x =>
        if c.sessionMap.any (fun _ y => y == x) then
          { c.sessions x with discardMarker := some marker }
        else c.sessions x }
  else c

/-- What a failed call has to leave as it was: the map, the ids, and what exit and discard
    events do to the other sessions. -/
structure Undisturbed (s : Nat) (c c' : SshUdpClient) : Prop where
  sessionMap : c'.sessionMap = c.sessionMap
  ids : ∀ x, (c'.sessions x).id = (c.sessions x).id
  exits : ∀ x, x ≠ s → ∀ id code,
    (handleExitEvent c' id code).sessions x = (handleExitEvent c id code).sessions x
  discards : ∀ x, x ≠ s → ∀ marker,
    (handleDiscardEvent c' marker).sessions x = (handleDiscardEvent c marker).sessions x

/-! ## What `Attach` leaves -/

/-- `startSession` changes nothing but `started`, however it ends. -/
theorem startSession_client (c : SshUdpClient) (s : Nat) (msg : StartMessage) (o : Outcome) :
    (startSession c s msg o).client =
      c.setSession s { c.sessions s with started := true } := by
  unfold startSession
  by_cases hstarted : (c.sessions s).started = true
  · have hsame : { c.sessions s with started := true } = c.sessions s := by
      rw [← hstarted]
    rw [if_pos hstarted, hsame]
    exact congrArg (fun f => { c with sessions := f }) (Function.update_eq_self s c.sessions).symm
  · rw [if_neg hstarted]
    cases o.sendMessage with
    | some err => rfl
    | none => rfl

theorem attach_sessionMap (c : SshUdpClient) (s : Nat) (id : UInt64) (o : Outcome) :
    (attach c s id o).client.sessionMap =
      (c.sessionMap.insert id s).erase (c.sessions s).id := by
  unfold attach
  rw [startSession_client]
  rfl

/-- The session itself has the new id and is started, whatever the server answers. -/
theorem attach_session_self (c : SshUdpClient) (s : Nat) (id : UInt64) (o : Outcome) :
    (attach c s id o).client.sessions s = { c.sessions s with id := id, started := true } := by
  unfold attach
  rw [startSession_client, SshUdpClient.setSession_self, SshUdpClient.setSession_self]

theorem attach_session_of_ne (c : SshUdpClient) {s x : Nat} (hx : x ≠ s) (id : UInt64)
    (o : Outcome) : (attach c s id o).client.sessions x = c.sessions x := by
  unfold attach
  rw [startSession_client, SshUdpClient.setSession_of_ne _ hx,
    SshUdpClient.setSession_of_ne _ hx]

/-- The events treat two clients alike that have the same map, on every session they agree
    on. -/
theorem handleExitEvent_congr {c c' : SshUdpClient} {x : Nat}
    (hmap : c'.sessionMap = c.sessionMap) (hx : c'.sessions x = c.sessions x) (id : UInt64)
    (code : Int) :
    (handleExitEvent c' id code).sessions x = (handleExitEvent c id code).sessions x := by
  unfold handleExitEvent
  rw [hmap]
  cases c.sessionMap.lookup id with
  | none => exact hx
  | some y =>
    show (c'.setSession y _).sessions x = (c.setSession y _).sessions x
    by_cases hxy : x = y
    · subst hxy
      rw [SshUdpClient.setSession_self, SshUdpClient.setSession_self, hx]
    · rw [SshUdpClient.setSession_of_ne _ hxy, SshUdpClient.setSession_of_ne _ hxy, hx]

theorem handleDiscardEvent_congr {c c' : SshUdpClient} {x : Nat}
    (hmap : c'.sessionMap = c.sessionMap) (hx : c'.sessions x = c.sessions x)
    (marker : List UInt8) :
    (handleDiscardEvent c' marker).sessions x = (handleDiscardEvent c marker).sessions x := by
  unfold handleDiscardEvent
  split
  · simp only [hmap, hx]
  · exact hx

theorem undisturbed_of_map {c : SshUdpClient} {s : Nat} {id : UInt64} {o : Outcome}
    (hmap : (attach c s id o).client.sessionMap = c.sessionMap)
    (hid : id = (c.sessions s).id) : Undisturbed s c (attach c s id o).client := by
  refine ⟨hmap, ?_, ?_, ?_⟩
  · intro x
    by_cases hx : x = s
    · subst hx
      rw [attach_session_self, hid]
    · rw [attach_session_of_ne c hx]
  · intro x hx id' code
    exact handleExitEvent_congr hmap (attach_session_of_ne c hx id o) id' code
  · intro x hx marker
    exact handleDiscardEvent_congr hmap (attach_session_of_ne c hx id o) marker

/-- With its own id the call only removes the session from the map. -/
theorem attach_own_id_sessionMap (c : SshUdpClient) (s : Nat) (o : Outcome) :
    (attach c s (c.sessions s).id o).client.sessionMap =
      c.sessionMap.erase (c.sessions s).id := by
  rw [attach_sessionMap]
  apply Finmap.ext_lookup
  intro k
  by_cases hk : k = (c.sessions s).id
  · rw [hk, Finmap.lookup_erase, Finmap.lookup_erase]
  · rw [Finmap.lookup_erase_ne hk, Finmap.lookup_insert_of_ne _ hk, Finmap.lookup_erase_ne hk]

/-- Under another id the call takes the exit event of that id over: no other session gets it
    any more. -/
theorem attach_takes_exit (c : SshUdpClient) {s x : Nat} (hx : x ≠ s) {id : UInt64}
    (hid : id ≠ (c.sessions s).id) (o : Outcome) (code : Int) :
    (handleExitEvent (attach c s id o).client id code).sessions x = c.sessions x := by
  have hlookup : (attach c s id o).client.sessionMap.lookup id = some s := by
    rw [attach_sessionMap, Finmap.lookup_erase_ne hid, Finmap.lookup_insert]
  unfold handleExitEvent
  rw [hlookup]
  show (((attach c s id o).client).setSession s _).sessions x = c.sessions x
  rw [SshUdpClient.setSession_of_ne _ hx, attach_session_of_ne c hx]

/-- **A failed attach** leaves the client as it was exactly when the session asks for its own
    id and has already left the map. -/
theorem attach_error_undisturbed_iff (c : SshUdpClient) (s : Nat) (id : UInt64) (o : Outcome)
    (e : StartError) (_herr : (attach c s id o).err = some e) :
    Undisturbed s c (attach c s id o).client ↔
      id = (c.sessions s).id ∧ c.sessionMap.lookup id = none := by
  refine ⟨?_, ?_⟩
  · intro hsame
    have hid : id = (c.sessions s).id := by
      have h := hsame.ids s
      rwa [attach_session_self] at h
    subst hid
    have hmap := hsame.sessionMap
    rw [attach_own_id_sessionMap] at hmap
    exact ⟨rfl, by rw [← hmap, Finmap.lookup_erase]⟩
  · rintro ⟨rfl, habsent⟩
    apply undisturbed_of_map _ rfl
    rw [attach_own_id_sessionMap]
    apply Finmap.ext_lookup
    intro k
    by_cases hk : k = (c.sessions s).id
    · rw [hk, Finmap.lookup_erase, habsent]
    · rw [Finmap.lookup_erase_ne hk]

/-- A session that was never started. -/
def newSession (id : UInt64) : SshUdpSession where
  id := id
  height := 24
  width := 80
  started := false
  x11 := none
  agent := false
  code := 0
  exitWG := 1
  discardMarker := none

/-- Session `0` under id `0` and session `1` under id `1`. -/
def twoSessions : SshUdpClient where
  sessions := fun x => newSession (UInt64.ofNat x)
  sessionMap := ((∅ : Finmap (fun _ : UInt64 => Nat)).insert 0 0).insert 1 1
  exitWG := 2

def refusal : Outcome := { sendMessage := none, recvMessage := .ok (0, "no such session") }

/-- Session `1` is attached to `0` and refused: the exit event of session `0` never comes. -/
theorem refused_attach_takes_exit :
    (attach twoSessions 1 0 refusal).err = some (.refused 0 "no such session") ∧
      ((handleExitEvent twoSessions 0 7).sessions 0).exitWG = 0 ∧
      ((handleExitEvent (attach twoSessions 1 0 refusal).client 0 7).sessions 0).exitWG = 1 ∧
      ¬ Undisturbed 1 twoSessions (attach twoSessions 1 0 refusal).client := by
  refine ⟨by decide +kernel, by decide +kernel, by decide +kernel, ?_⟩
  intro hsame
  have hexit := congrArg SshUdpSession.exitWG (hsame.exits 0 (by decide) 0 7)
  exact absurd hexit (by decide +kernel)

/-- Session `1` has exited and asks for its own id: a refusal leaves the client as it was. -/
theorem exited_own_id_undisturbed :
    Undisturbed 1 (handleExitEvent twoSessions 1 0)
      (attach (handleExitEvent twoSessions 1 0) 1 1 refusal).client :=
  (attach_error_undisturbed_iff (handleExitEvent twoSessions 1 0) 1 1 refusal
    (.refused 0 "no such session") (by decide +kernel)).mpr (by decide +kernel)

end ClientAttach
