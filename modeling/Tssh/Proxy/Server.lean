import Tssh.Framework.Threads
import Tssh.Proxy.Auth
import Mathlib.Logic.Function.Basic

/-! # The Server Proxy's Front Ends

    The UDP front end (`udpFrontendConn`) and the TCP front end
    (`tcpFrontendConn`) of `tsshd/proxy_server.go`, and the timeout callback of
    `tsshd/server.go`, which share the state of the clients.

    Every goroutine is a program of atomic actions: one action for each atomic
    load, store, swap or compare-and-swap, and one for each access of a map under
    its mutex.

    An address or a connection that a client state points to is a reference: the
    address or connection together with the number of the accepted
    authentication it was made for.
-/

open Go LTS

namespace Proxy

/-! ## State -/

/-- `net.UDPAddr`, with the IP in its 16-byte form.  Two addresses are the same
    (`isSameAddr`) when they are equal in this form, and then their `String` is the same,
    so the address itself serves as the key of the maps. -/
structure UDPAddr where
  ip : Bytes
  port : Nat
  zone : String
  deriving DecidableEq, Repr

/-- A cloned address: `cloneNetAddr` makes a new object for each authentication. -/
structure AddrRef where
  addr : UDPAddr
  auth : Nat
  deriving DecidableEq, Repr

/-- A TCP connection, installed for an authentication. -/
structure ConnRef where
  conn : Nat
  auth : Nat
  deriving DecidableEq, Repr

/-- `clientState`, with the timeout flag of its server's checker. -/
structure ClientState where
  serialNumber : UInt64 := 0
  clientConn : Option ConnRef := none
  clientAddr : Option AddrRef := none
  authedAddr : Option AddrRef := none
  udpFrontConn : Bool := false
  timeoutFlag : Bool := false

/-- Where a packet came from. -/
inductive Source where
  | udp (addr : UDPAddr)
  | tcp (conn : Nat)
  deriving DecidableEq, Repr

/-- A successful compare-and-swap of a serial number.  It is a `renewal` if it repeats the
    authentication of an address that is authenticated already. -/
structure Accepted where
  client : UInt64
  serial : UInt64
  source : Source
  packet : Bytes
  renewal : Bool

/-- A timeout callback cleared a reference.  `flagged` and `cleared` are the numbers of
    authentications accepted when the timeout was flagged and when the callback cleared. -/
structure Cleared where
  client : UInt64
  flagged : Nat
  cleared : Nat
  auth : Nat

/-- History variables.  No program decides anything from them. -/
structure Log where
  received : List (Source × Bytes) := []
  accepted : List Accepted := []
  /-- The references that a client's `authedAddr` ever held. -/
  held : List (UInt64 × AddrRef) := []
  /-- The connections that `setClientConn` installed, the latest one last. -/
  installs : List (UInt64 × ConnRef) := []
  /-- The connections that `setClientConn` replaced, each with the new one. -/
  replaced : List (UInt64 × ConnRef × ConnRef) := []
  cleared : List Cleared := []

structure State where
  /-- The `clientMap` of the proxy.  A client that is not in it has the state that
      `newClientState` gives it. -/
  clients : UInt64 → ClientState := fun _ => {}
  known : List UInt64 := []
  /-- The UDP connection has been chosen. -/
  conn : Bool := false
  cacheClient : Option UInt64 := none
  clientMap : UDPAddr → Option UInt64 := fun _ => none
  authedMap : UDPAddr → Option UInt64 := fun _ => none
  /-- The packets written, and where to. -/
  sent : List (Source × Bytes) := []
  log : Log := {}

/-- A datagram received by `readFrom`, with the nonce of the response it may lead to. -/
structure Datagram where
  addr : UDPAddr
  buf : Bytes
  nonce : Bytes

/-! ## Atomic accesses -/

/-- A timeout callback passes as `flagged` the number of authentications that were accepted
    when its timeout was flagged; `old` is the reference it is about to clear. -/
def Log.clear (log : Log) (c : UInt64) (flagged old : Option Nat) : List Cleared :=
  match flagged, old with
  | some n, some i =>
    log.cleared ++ [{ client := c, flagged := n, cleared := log.accepted.length, auth := i }]
  | _, _ => log.cleared

namespace State

def modifyClient (s : State) (c : UInt64) (f : ClientState → ClientState) : State :=
  { s with clients := Function.update s.clients c (f (s.clients c)) }

/-- `clientAddr.Swap(addr)`. -/
def swapClientAddr (c : UInt64) (addr : Option AddrRef) (flagged : Option Nat) (s : State) :
    Option AddrRef × State :=
  let old := (s.clients c).clientAddr
  (old, { s.modifyClient c ({ · with clientAddr := addr }) with
    log := { s.log with cleared := s.log.clear c flagged (old.map (·.auth)) } })

/-- `authedAddr.Swap(addr)`. -/
def swapAuthedAddr (c : UInt64) (addr : Option AddrRef) (flagged : Option Nat) (s : State) :
    Option AddrRef × State :=
  let old := (s.clients c).authedAddr
  (old, { s.modifyClient c ({ · with authedAddr := addr }) with
    log := { s.log with
      held := s.log.held ++ (addr.map (c, ·)).toList
      cleared := s.log.clear c flagged (old.map (·.auth)) } })

/-- `clientConn.Swap(conn)`. -/
def swapClientConn (c : UInt64) (conn : Option ConnRef) (flagged : Option Nat) (s : State) :
    Option ConnRef × State :=
  let old := (s.clients c).clientConn
  (old, { s.modifyClient c ({ · with clientConn := conn }) with
    log := { s.log with
      installs := s.log.installs ++ (conn.map (c, ·)).toList
      replaced := s.log.replaced ++ (old.bind fun o => conn.map (c, o, ·)).toList
      cleared := s.log.clear c flagged (old.map (·.auth)) } })

/-- The serial number of an authentication becomes that of its client. -/
def accept (e : Accepted) (s : State) : State :=
  { s.modifyClient e.client ({ · with serialNumber := e.serial }) with
    log := { s.log with accepted := s.log.accepted ++ [e] } }

/-- `serialNumber.CompareAndSwap(old, new)`; a success is numbered. -/
def casSerialNumber (old : UInt64) (e : Accepted) (s : State) : Option Nat × State :=
  if (s.clients e.client).serialNumber = old then (some s.log.accepted.length, s.accept e)
  else (none, s)

/-- `udpFrontConn.Store(c)`. -/
def storeFrontConn (c : UInt64) (s : State) : State :=
  s.modifyClient c ({ · with udpFrontConn := true })

/-- A packet arrives. -/
def receive (source : Source) (buf : Bytes) (s : State) : State :=
  { s with log := { s.log with received := s.log.received ++ [(source, buf)] } }

end State

open Prog State

variable {Key : Type} (P : ServerProxy Key)

/-! ## Client states -/

/-- `addClientMap`. -/
def addClientMap (c : UInt64) : Prog State Unit :=
  if P.attachable then do
    match ← load (fun s => (s.clients c).clientAddr) with
    | none => pure ()
    | some addr =>
      store (fun s => { s with clientMap := Function.update s.clientMap addr.addr (some c) })
  else pure ()

/-- `delClientMap`. -/
def delClientMap (addr : UDPAddr) : Prog State Unit :=
  if P.attachable then
    store (fun s => { s with clientMap := Function.update s.clientMap addr none })
  else pure ()

/-- `addAuthedMap`. -/
def addAuthedMap (c : UInt64) : Prog State Unit :=
  if P.attachable then do
    match ← load (fun s => (s.clients c).authedAddr) with
    | none => pure ()
    | some addr =>
      store (fun s => { s with authedMap := Function.update s.authedMap addr.addr (some c) })
  else pure ()

/-- `delAuthedMap`. -/
def delAuthedMap (addr : UDPAddr) : Prog State Unit :=
  if P.attachable then
    store (fun s => { s with authedMap := Function.update s.authedMap addr none })
  else pure ()

/-- `setClientAddr`. -/
def setClientAddr (c : UInt64) (addr : Option AddrRef) (flagged : Option Nat) :
    Prog State Unit := do
  let conn ← load (fun s => (s.clients c).udpFrontConn)
  let oldAddr ← atomic (swapClientAddr c addr flagged)
  if addr.isSome ∧ conn then addClientMap P c else pure ()
  match oldAddr with
  | some old => if conn then delClientMap P old.addr else pure ()
  | none => pure ()

/-- `setAuthedAddr`. -/
def setAuthedAddr (c : UInt64) (addr : Option AddrRef) (flagged : Option Nat) :
    Prog State Unit := do
  let conn ← load (fun s => (s.clients c).udpFrontConn)
  let oldAddr ← atomic (swapAuthedAddr c addr flagged)
  if addr.isSome ∧ conn then addAuthedMap P c else pure ()
  match oldAddr with
  | some old => if conn then delAuthedMap P old.addr else pure ()
  | none => pure ()

/-- `setClientConn`, which swaps under the client's mutex. -/
def setClientConn (c : UInt64) (conn : ConnRef) : Prog State Unit := do
  let _ ← atomic (swapClientConn c (some conn) none)

/-- `serverProxy.getClient`: the sole client, or the one of the map, created if needed. -/
def proxyGetClient (c : UInt64) : Prog State Unit :=
  if ¬ P.attachable ∧ c = P.clientID then pure ()
  else store (fun s => if c ∈ s.known then s else { s with known := s.known ++ [c] })

/-! ## The UDP front end -/

/-- `isSameAddr`. -/
def isSameAddr (a : Option AddrRef) (addr : UDPAddr) : Bool :=
  match a with
  | none => false
  | some a => a.addr.port = addr.port ∧ a.addr.zone = addr.zone ∧ a.addr.ip = addr.ip

/-- The result of `udpFrontendConn.getClient`: a client with `isClientAddr`, one with
    `isAuthedAddr`, or none. -/
inductive Lookup where
  | active (c : UInt64)
  | authed (c : UInt64)
  | unknown
  deriving DecidableEq, Repr

/-- Compare both addresses of client `c`. -/
def compareAddrs (c : UInt64) (addr : UDPAddr) (otherwise : Prog State Lookup) :
    Prog State Lookup := do
  let clientAddr ← load (fun s => (s.clients c).clientAddr)
  if isSameAddr clientAddr addr then pure (.active c)
  else
    let authedAddr ← load (fun s => (s.clients c).authedAddr)
    if isSameAddr authedAddr addr then pure (.authed c) else otherwise

/-- The lookup in `authedMap`. -/
def lookupAuthed (addr : UDPAddr) : Prog State Lookup := do
  match ← load (fun s => s.authedMap addr) with
  | none => pure .unknown
  | some c =>
    let authedAddr ← load (fun s => (s.clients c).authedAddr)
    if isSameAddr authedAddr addr then pure (.authed c) else pure .unknown

/-- The lookup in `clientMap`, then in `authedMap`. -/
def lookupMaps (addr : UDPAddr) : Prog State Lookup := do
  match ← load (fun s => s.clientMap addr) with
  | none => lookupAuthed addr
  | some c =>
    let clientAddr ← load (fun s => (s.clients c).clientAddr)
    if isSameAddr clientAddr addr then do
      store (fun s => { s with cacheClient := some c })
      pure (.active c)
    else lookupAuthed addr

/-- `udpFrontendConn.getClient`. -/
def getClient (addr : UDPAddr) : Prog State Lookup :=
  if P.attachable then do
    match ← load (fun s => s.cacheClient) with
    | some c => compareAddrs c addr (lookupMaps addr)
    | none => lookupMaps addr
  else compareAddrs P.clientID addr (pure .unknown)

/-- A packet of at most this length is dropped, not forwarded. -/
def kSafeToDropPacketLen : Nat := 16

/-- What `readFrom` returns to `ReadFrom`: the length and the client of a packet to forward;
    nothing where it goes on to the next datagram. -/
def forward (d : Datagram) (c : UInt64) : Option (Nat × UInt64) :=
  if d.buf.length ≤ kSafeToDropPacketLen then none else some (d.buf.length, c)

/-- Send the authentication response. -/
def respond (d : Datagram) (serialNumber : UInt64) : Prog State Unit :=
  store (fun s => { s with
    sent := s.sent ++ [(.udp d.addr, P.sealAuthPacket d.nonce serialNumber)] })

/-- Case 2 of `readFrom`: the address is authenticated but not active. -/
def readAuthed (d : Datagram) (c : UInt64) : Prog State (Option (Nat × UInt64)) :=
  match P.openAuthPacket d.buf with
  | none => do
    -- the first packet that is no authentication makes the address the active one
    match ← load (fun s => (s.clients c).authedAddr) with
    | some addr => do
      setClientAddr P c (some addr) none
      setAuthedAddr P c none none
      pure (forward d c)
    | none => pure none
  | some (clientID, newSerialNumber) =>
    if clientID ≠ c then do
      setAuthedAddr P c none none
      pure none
    else do
      let oldSerialNumber ← load (fun s => (s.clients c).serialNumber)
      if newSerialNumber < oldSerialNumber then pure none
      else do
        match ← atomic (casSerialNumber oldSerialNumber
            { client := c, serial := newSerialNumber, source := .udp d.addr, packet := d.buf,
              renewal := true }) with
        | some _ => respond P d newSerialNumber
        | none => do
          let serialNumber ← load (fun s => (s.clients c).serialNumber)
          respond P d serialNumber
        pure none

/-- Case 3 of `readFrom`: the address is unknown. -/
def readUnknown (d : Datagram) : Prog State (Option (Nat × UInt64)) :=
  match P.openAuthPacket d.buf with
  | none => pure none
  | some (c, newSerialNumber) => do
    proxyGetClient P c
    store (storeFrontConn c)
    let oldSerialNumber ← load (fun s => (s.clients c).serialNumber)
    if newSerialNumber ≤ oldSerialNumber then pure none
    else do
      match ← atomic (casSerialNumber oldSerialNumber
          { client := c, serial := newSerialNumber, source := .udp d.addr, packet := d.buf,
            renewal := false }) with
      | some auth => do
        setAuthedAddr P c (some { addr := d.addr, auth := auth }) none
        respond P d newSerialNumber
      | none => do
        let serialNumber ← load (fun s => (s.clients c).serialNumber)
        respond P d serialNumber
      pure none

/-- One iteration of `readFrom`, which waits until there is a connection. -/
def readFrom (d : Datagram) : Prog State (Option (Nat × UInt64)) := do
  let conn ← load (fun s => s.conn)
  if conn then do
    store (receive (.udp d.addr) d.buf)
    match ← getClient P d.addr with
    | .active c => pure (forward d c)
    | .authed c => readAuthed P d c
    | .unknown => readUnknown P d
  else pure none

/-- `initConn`, with the authentication that `probeAuth` found on the connection.  The
    mutex makes the test and the choice of the connection one step. -/
def initConn (auth : Option (Datagram × UInt64 × UInt64)) : Prog State Unit := do
  let first ← atomic (fun s => (!s.conn, { s with conn := true }))
  if first then
    match auth with
    | none => pure ()
    | some (d, c, newSerialNumber) => do
      proxyGetClient P c
      store (storeFrontConn c)
      let oldSerialNumber ← load (fun s => (s.clients c).serialNumber)
      if newSerialNumber > oldSerialNumber then do
        match ← atomic (casSerialNumber oldSerialNumber
            { client := c, serial := newSerialNumber, source := .udp d.addr, packet := d.buf,
              renewal := false }) with
        | some auth => setAuthedAddr P c (some { addr := d.addr, auth := auth }) none
        | none => pure ()
      else pure ()
  else pure ()

/-- `probeAuth` on one datagram. -/
def probeAuth (d : Datagram) : Prog State Unit := do
  store (receive (.udp d.addr) d.buf)
  match P.openAuthPacket d.buf with
  | none => pure ()
  | some (c, serialNumber) => initConn P (some (d, c, serialNumber))

/-! ## The TCP front end -/

/-- A connection, the first packet on it, the nonce of the response, and whether the
    response can be written. -/
structure Handshake where
  conn : Nat
  buf : Bytes
  nonce : Bytes
  writeOk : Bool

/-- `handshake`. -/
def handshake (h : Handshake) : Prog State Unit := do
  store (receive (.tcp h.conn) h.buf)
  match P.openAuthPacket h.buf with
  | none => pure ()
  | some (c, newSerialNumber) => do
    proxyGetClient P c
    let oldSerialNumber ← load (fun s => (s.clients c).serialNumber)
    if newSerialNumber ≤ oldSerialNumber then pure ()
    else do
      match ← atomic (casSerialNumber oldSerialNumber
          { client := c, serial := newSerialNumber, source := .tcp h.conn, packet := h.buf,
            renewal := false }) with
      | none => pure ()
      | some auth =>
        if h.writeOk then do
          store (fun s => { s with
            sent := s.sent ++ [(.tcp h.conn, P.sealAuthPacket h.nonce newSerialNumber)] })
          setClientConn c { conn := h.conn, auth := auth }
        else pure ()

/-- `clientConn.CompareAndSwap(conn, nil)`, where a read or write on `conn` failed. -/
def dropConn (c : UInt64) (conn : ConnRef) : Prog State Unit :=
  store (fun s =>
    if (s.clients c).clientConn = some conn then s.modifyClient c ({ · with clientConn := none })
    else s)

/-! ## The timeout checker -/

/-- The callback that `initClientChecker` registers. -/
def clearTransport (c : UInt64) (flagged : Nat) : Prog State Unit := do
  setAuthedAddr P c none (some flagged)
  setClientAddr P c none (some flagged)
  let _ ← atomic (swapClientConn c none (some flagged))

/-- The timeout event of `handleEvent`, and the callback it starts. -/
def timeoutEvent (c : UInt64) : Prog State Unit := do
  let flagged ← atomic (fun s =>
    if (s.clients c).timeoutFlag then (none, s)
    else (some s.log.accepted.length, s.modifyClient c ({ · with timeoutFlag := true })))
  match flagged with
  | none => pure ()
  | some n => clearTransport P c n

/-- `setReconnected` of `handleEvent`. -/
def setReconnected (c : UInt64) : Prog State Unit :=
  store (fun s => s.modifyClient c ({ · with timeoutFlag := false }))

/-! ## All goroutines -/

inductive Goroutine where
  | readFrom (d : Datagram)
  /-- `start` with a single connection. -/
  | initConn
  | probeAuth (d : Datagram)
  | handshake (h : Handshake)
  | dropConn (c : UInt64) (conn : ConnRef)
  | timeoutEvent (c : UInt64)
  | setReconnected (c : UInt64)

def Goroutine.prog : Goroutine → Prog State Unit
  | .readFrom d => do let _ ← Proxy.readFrom P d
  | .initConn => Proxy.initConn P none
  | .probeAuth d => Proxy.probeAuth P d
  | .handshake h => Proxy.handshake P h
  | .dropConn c conn => Proxy.dropConn c conn
  | .timeoutEvent c => Proxy.timeoutEvent P c
  | .setReconnected c => Proxy.setReconnected c

/-- The front ends and the timeout checker: any number of goroutines, in any
    interleaving. -/
def frontEnds : System (Pool State) (Sched Goroutine) := pool (Goroutine.prog P) {}

/-! ## A small instance -/

/-- A server proxy with the one-byte cipher. -/
def xorProxy (attachable : Bool) : ServerProxy UInt8 :=
  { gcm := Aead.xorCipher, cipherBlock := 5, attachable := attachable, serverID := 9,
    clientID := 7 }

def addrAt (port : Nat) : UDPAddr := { ip := List.replicate 16 0, port := port, zone := "" }

/-- A zero nonce. -/
def zeroNonce : Bytes := List.replicate 12 0

/-- An authentication packet from port `port`. -/
def authFrom (port : Nat) (c serial : UInt64) : Datagram :=
  { addr := addrAt port
    buf := (xorProxy true).aesEncrypt zeroNonce (putUint64 c ++ putUint64 serial)
    nonce := zeroNonce }

end Proxy
