import Mathlib.Data.List.Rotate
import Mathlib.Data.List.Nodup
import Mathlib.Data.List.Perm.Basic
import Tssh.Framework.Slice
import Tssh.Ports.Ranges

/-! # Listening on a Free Port

    `listenOnFreePort` of `tsshd/service.go` opens the sockets of the server.  The port ranges
    of the command line are shuffled, in each range the search starts at a random port and wraps
    around, and a port is taken when a socket can be opened on it at every address of
    `getUdpAddrs`.  Where one address fails, the sockets opened so far on that port are closed
    again.

    * **Model**: the operating system is any answer to a request to bind, which may depend on
      the sockets that are open (`Os.bind`); the random numbers are any sequence.  A socket has
      a handle that is never used twice, so closing is exact.
    * `listenOnPort_spec`: one attempt opens a socket at every address or leaves the open
      sockets as they were.
    * `visited_perm`: a walk through a range visits each of its ports once.
    * `listenOnFreePort_finds_free`: for every order and every start the search succeeds exactly
      where some port of the ranges can be bound, and leaks no socket.
-/

namespace Ports

open Sshd Go

/-! ## Sockets -/

inductive Proto where
  | udp
  | tcp
  deriving DecidableEq, Repr

/-- The IP and the zone of a `net.UDPAddr`; no IP is the address of `:0`. -/
structure Addr where
  ip : Bytes
  zone : Text
  deriving DecidableEq, Repr

/-- What a socket is bound to; port 0 asks the system for any port. -/
structure Sock where
  proto : Proto
  addr : Addr
  port : Nat
  deriving DecidableEq, Repr

/-- The answer of the system to a request to bind while some sockets are open: an error, or
    `none` where the socket is opened. -/
structure Os where
  bind : List Sock → Sock → Option Text

/-- The open sockets of the process under their handles. -/
structure Net where
  next : Nat
  sockets : List (Nat × Sock)
  fresh : ∀ p ∈ sockets, p.1 < next
  nodup : (sockets.map Prod.fst).Nodup

namespace Net

/-- What the open sockets are bound to. -/
def bound (n : Net) : List Sock := n.sockets.map Prod.snd

/-- A new socket, under the next handle. -/
def add (n : Net) (s : Sock) : Net where
  next := n.next + 1
  sockets := n.sockets ++ [(n.next, s)]
  fresh := by
    intro p hp
    rcases List.mem_append.mp hp with hold | hnew
    · exact Nat.lt_succ_of_lt (n.fresh p hold)
    · rw [List.mem_singleton.mp hnew]
      exact Nat.lt_succ_self _
  nodup := by
    rw [List.map_append]
    refine List.nodup_append.mpr ⟨n.nodup, List.nodup_singleton _, ?_⟩
    intro a ha b hb heq
    obtain ⟨p, hp, rfl⟩ := List.mem_map.mp ha
    have hlt := n.fresh p hp
    rw [heq, List.mem_singleton.mp hb] at hlt
    exact Nat.lt_irrefl _ hlt

/-- `Close` of a socket. -/
def close (n : Net) (fd : Nat) : Net where
  next := n.next
  sockets := n.sockets.filter (·.1 ≠ fd)
  fresh := fun p hp => n.fresh p (List.mem_of_mem_filter hp)
  nodup := n.nodup.sublist (List.filter_sublist.map _)

/-- `net.ListenUDP` and `net.ListenTCP`. -/
def listen (os : Os) (n : Net) (s : Sock) : Except Text Nat × Net :=
  match os.bind n.bound s with
  | some err => (.error err, n)
  | none => (.ok n.next, n.add s)

theorem bound_add (n : Net) (s : Sock) : (n.add s).bound = n.bound ++ [s] := by
  simp [bound, add]

/-- Closing several sockets takes exactly those out of the table. -/
theorem sockets_foldl_close (fds : List Nat) (n : Net) :
    (fds.foldl close n).sockets = n.sockets.filter (·.1 ∉ fds) := by
  induction fds generalizing n with
  | nil => simp
  | cons fd fds ih =>
    rw [List.foldl_cons, ih]
    show (n.sockets.filter _).filter _ = _
    rw [List.filter_filter]
    refine List.filter_congr fun p _ => ?_
    rw [Bool.and_comm]
    simp

/-- Where the sockets behind a base are closed, the base is what stays open. -/
theorem sockets_close_tail {n : Net} {base held : List (Nat × Sock)}
    (h : n.sockets = base ++ held) :
    ((held.map Prod.fst).foldl close n).sockets = base := by
  have hnodup := n.nodup
  rw [h, List.map_append] at hnodup
  have hdisjoint := (List.nodup_append.mp hnodup).2.2
  rw [sockets_foldl_close, h, List.filter_append]
  have hbase : base.filter (fun p => decide (p.1 ∉ held.map Prod.fst)) = base := by
    refine List.filter_eq_self.mpr fun p hp => decide_eq_true fun hmem => ?_
    exact hdisjoint p.1 (List.mem_map_of_mem hp) p.1 hmem rfl
  have hheld : held.filter (fun p => decide (p.1 ∉ held.map Prod.fst)) = [] := by
    refine List.filter_eq_nil_iff.mpr fun p hp hout => ?_
    exact of_decide_eq_true hout (List.mem_map_of_mem hp)
  rw [hbase, hheld, List.append_nil]

end Net

/-! ## The code -/

/-- The connection a server is started on, with the handles of its sockets. -/
inductive Frontend where
  | udp (connList : List Nat)
  | tcp (listenerList : List Nat)
  deriving DecidableEq, Repr

/-- The loop over the addresses; where one fails, the deferred function closes the sockets
    opened before it. -/
def listenLoop (os : Os) (proto : Proto) (port : Nat) :
    List Addr → List Nat → Net → Except Text (List Nat) × Net
  | [], connList, net => (.ok connList, net)
  | addr :: addrs, connList, net =>
    match net.listen os ⟨proto, addr, port⟩ with
    | (.error err, net) => (.error err, connList.foldl Net.close net)
    | (.ok conn, net) => listenLoop os proto port addrs (connList ++ [conn]) net

def udpListenOnPort (os : Os) (addrs : List Addr) (port : Nat) (net : Net) :
    Except Text Frontend × Net :=
  let (conn, net) := listenLoop os .udp port addrs [] net
  (conn.map .udp, net)

def tcpListenOnPort (os : Os) (addrs : List Addr) (port : Nat) (net : Net) :
    Except Text Frontend × Net :=
  let (conn, net) := listenLoop os .tcp port addrs [] net
  (conn.map .tcp, net)

/-- The arguments of the server that the search reads. -/
structure TsshdArgs where
  tcp : Bool
  ipv4 : Bool
  ipv6 : Bool
  port : Text

def TsshdArgs.proto (args : TsshdArgs) : Proto := if args.tcp then .tcp else .udp

def canListenOnIP (os : Os) (args : TsshdArgs) (addr : Addr) (net : Net) : Bool × Net :=
  match net.listen os ⟨args.proto, addr, 0⟩ with
  | (.error _, net) => (false, net)
  | (.ok conn, net) => (true, net.close conn)

/-- `ip.To4() != nil`: four bytes, or sixteen with the prefix of a mapped address. -/
def isIPv4 (ip : Bytes) : Bool :=
  ip.length = 4 || (ip.length = 16 && ip.take 12 = List.replicate 10 0 ++ [255, 255])

/-- `ip.To16() != nil`. -/
def isIP (ip : Bytes) : Bool := ip.length = 4 || ip.length = 16

/-- An address of an interface. -/
inductive IfAddr where
  | ipNet (ip : Bytes)
  | ipAddr (ip : Bytes)
  | other
  deriving DecidableEq, Repr

/-- What `getUdpAddrs` asks the host for: the variable `SSH_CONNECTION` (empty where it is not
    set), the resolver, and the interfaces with their addresses, either of which may fail. -/
structure Host where
  sshConnection : Text
  resolveUDPAddr : Text → Except Text Addr
  interfaces : Option (List (Text × Option (List IfAddr)))

/-- The address of the server in `SSH_CONNECTION`, as it is given to the resolver. -/
def sshConnectionAddr (sshConnection : Text) : Option Text :=
  match fields sshConnection with
  | _ :: _ :: ip :: _ =>
    let ip := if "::ffff:".toList.isPrefixOf (toLower ip) then ip.drop 7 else ip
    if ['['].isPrefixOf ip = false ∧ ':' ∈ ip then some ('[' :: ip ++ "]:0".toList)
    else some (ip ++ ":0".toList)
  | _ => none

/-- The address is taken where the test socket could be opened. -/
def addIfListenable (os : Os) (args : TsshdArgs) (addr : Addr) (s : List Addr × Net) :
    List Addr × Net :=
  match canListenOnIP os args addr s.2 with
  | (true, net) => (s.1 ++ [addr], net)
  | (false, net) => (s.1, net)

def addListenableAddr (os : Os) (args : TsshdArgs) (ip : Bytes) (zone : Text)
    (s : List Addr × Net) : List Addr × Net :=
  if isIPv4 ip then
    -- ipv6Only
    if !args.ipv4 && args.ipv6 then s else addIfListenable os args ⟨ip, []⟩ s
  else if isIP ip then
    -- ipv4Only
    if args.ipv4 && !args.ipv6 then s else addIfListenable os args ⟨ip, zone⟩ s
  else s

def addInterfaceAddr (os : Os) (args : TsshdArgs) (name : Text) (s : List Addr × Net) :
    IfAddr → List Addr × Net
  | .ipNet ip => addListenableAddr os args ip name s
  | .ipAddr ip => addListenableAddr os args ip name s
  | .other => s

/-- The listenable addresses of the interfaces. -/
def interfaceAddrs (os : Os) (host : Host) (args : TsshdArgs) (net : Net) : List Addr × Net :=
  (host.interfaces.getD []).foldl
    (fun s iface => (iface.2.getD []).foldl (addInterfaceAddr os args iface.1) s) ([], net)

/-- The address of `SSH_CONNECTION`, where it can be listened on. -/
def sshConnectionListenable (os : Os) (host : Host) (args : TsshdArgs) (net : Net) :
    Option Addr × Net :=
  match sshConnectionAddr host.sshConnection with
  | none => (none, net)
  | some addr =>
    match host.resolveUDPAddr addr with
    | .error _ => (none, net)
    | .ok udpAddr =>
      let (ok, net) := canListenOnIP os args udpAddr net
      (if ok then some udpAddr else none, net)

def getUdpAddrs (os : Os) (host : Host) (args : TsshdArgs) (net : Net) :
    Except Text (List Addr) × Net :=
  match sshConnectionListenable os host args net with
  | (some udpAddr, net) => (.ok [udpAddr], net)
  | (none, net) =>
    match interfaceAddrs os host args net with
    | ([], net) => ((host.resolveUDPAddr ":0".toList).map ([·]), net)
    | (udpAddrs, net) => (.ok udpAddrs, net)

/-- `rand.Shuffle`: from the last range down, each is swapped with one that is not behind it. -/
def shuffle (rand : Nat → Nat) : Nat → List Range → List Range
  | 0, rs => rs
  | i + 1, rs => shuffle rand i (rs.swap (i + 1) (rand i % (i + 2)))

/-- The search: the open sockets, the last error, and the ports tried so far. -/
structure Search where
  net : Net
  lastErr : Option Text
  tried : List Nat

def listenOnPort (os : Os) (args : TsshdArgs) (addrs : List Addr) (port : Nat) (net : Net) :
    Except Text Frontend × Net :=
  if args.tcp then tcpListenOnPort os addrs port net else udpListenOnPort os addrs port net

/-- The next port of a range. -/
def nextPort (low high port : Nat) : Nat := if port + 1 > high then low else port + 1

/-- The loop over one range. -/
def rangeLoop (os : Os) (args : TsshdArgs) (addrs : List Addr) (low high : Nat) :
    Nat → Nat → Search → Option (Frontend × Nat) × Search
  | 0, _, s => (none, s)
  | rounds + 1, port, s =>
    match listenOnPort os args addrs port s.net with
    | (.ok conn, net) => (some (conn, port), ⟨net, s.lastErr, s.tried ++ [port]⟩)
    | (.error err, net) =>
      rangeLoop os args addrs low high rounds (nextPort low high port)
        ⟨net, some err, s.tried ++ [port]⟩

/-- How many ports a range has. -/
def Range.size (r : Range) : Nat := r.2.toNat - r.1.toNat + 1

/-- Where the search in the `k`-th range starts. -/
def startPort (rand : Nat → Nat) (k : Nat) (r : Range) : Nat := r.1.toNat + rand k % r.size

/-- The loop over the ranges. -/
def rangesLoop (os : Os) (args : TsshdArgs) (addrs : List Addr) (rand : Nat → Nat) :
    List Range → Nat → Search → Option (Frontend × Nat) × Search
  | [], _, s => (none, s)
  | r :: rs, k, s =>
    match rangeLoop os args addrs r.1.toNat r.2.toNat r.size (startPort rand k r) s with
    | (some found, s) => (some found, s)
    | (none, s) => rangesLoop os args addrs rand rs (k + 1) s

def kDefaultPortRange : Text := "61001-61999".toList

/-- The `--port` argument, or the default. -/
def TsshdArgs.tsshdPort (args : TsshdArgs) : Text :=
  if args.port = [] then kDefaultPortRange else args.port

/-- The ranges the arguments ask for. -/
def TsshdArgs.portRanges (args : TsshdArgs) : List Range := (parsePortRanges args.tsshdPort).ranges

/-- The result of the search, the sockets that are open then, and the ports that were tried. -/
structure Listened where
  result : Except Text (Frontend × Nat)
  net : Net
  tried : List Nat

/-- `order` and `rand` are the random numbers of the shuffle and of the starting ports. -/
def listenOnFreePort (os : Os) (host : Host) (order rand : Nat → Nat) (args : TsshdArgs)
    (net : Net) : Listened :=
  match args.portRanges with
  | [] => ⟨.error ("no available port in [".toList ++ args.tsshdPort ++ "]".toList), net, []⟩
  | r :: rs =>
    let portRanges := shuffle order rs.length (r :: rs)
    match getUdpAddrs os host args net with
    | (.error err, net) => ⟨.error ("get available udp address failed: ".toList ++ err), net, []⟩
    | (.ok addrs, net) =>
      match rangesLoop os args addrs rand portRanges 0 ⟨net, none, []⟩ with
      | (some found, s) => ⟨.ok found, s.net, s.tried⟩
      | (none, s) =>
        let failed := "listen udp on [".toList ++ args.tsshdPort ++ "] failed".toList
        match s.lastErr with
        | some err => ⟨.error (failed ++ ": ".toList ++ err), s.net, s.tried⟩
        | none => ⟨.error failed, s.net, s.tried⟩

/-! ## One port -/

/-- A socket for each address can be opened on the port, in this order, while some sockets are
    open already. -/
def Bindable (os : Os) (proto : Proto) (bound : List Sock) (addrs : List Addr) (port : Nat) :
    Prop :=
  ∀ before addr after, addrs = before ++ addr :: after →
    os.bind (bound ++ before.map (⟨proto, ·, port⟩)) ⟨proto, addr, port⟩ = none

/-- The connection of the arguments over some sockets. -/
def TsshdArgs.frontend (args : TsshdArgs) (fds : List Nat) : Frontend :=
  if args.tcp then .tcp fds else .udp fds

/-- A connection was opened: new sockets on the port, one for each address, behind those that
    were open before. -/
def Opens (args : TsshdArgs) (base : List (Nat × Sock)) (addrs : List Addr) (port : Nat)
    (conn : Frontend) (net : Net) : Prop :=
  ∃ new : List (Nat × Sock), net.sockets = base ++ new ∧
    new.map Prod.snd = addrs.map (⟨args.proto, ·, port⟩) ∧ conn = args.frontend (new.map Prod.fst)

section OnePort

variable {os : Os} {proto : Proto} {port : Nat} {bound : List Sock}

theorem bindable_cons {addr : Addr} {addrs : List Addr} :
    Bindable os proto bound (addr :: addrs) port ↔
      os.bind bound ⟨proto, addr, port⟩ = none ∧
        Bindable os proto (bound ++ [⟨proto, addr, port⟩]) addrs port := by
  constructor
  · intro h
    refine ⟨by simpa using h [] addr addrs rfl, ?_⟩
    intro before addr' after heq
    have hbind := h (addr :: before) addr' after (by rw [heq]; rfl)
    simpa using hbind
  · intro ⟨hfirst, hrest⟩ before addr' after heq
    cases before with
    | nil =>
      obtain ⟨rfl, rfl⟩ := List.cons.inj heq
      simpa using hfirst
    | cons _ before =>
      obtain ⟨rfl, htail⟩ := List.cons.inj heq
      simpa using hrest before addr' after htail

/-- **The loop over the addresses** adds a socket for each of them, or gives back the table
    without those it was started with. -/
theorem listenLoop_spec (addrs : List Addr) {net : Net} {base held : List (Nat × Sock)}
    (h : net.sockets = base ++ held) :
    (∃ new net', listenLoop os proto port addrs (held.map Prod.fst) net =
        (.ok ((held ++ new).map Prod.fst), net') ∧
      net'.sockets = base ++ held ++ new ∧ new.map Prod.snd = addrs.map (⟨proto, ·, port⟩) ∧
      Bindable os proto net.bound addrs port) ∨
    ∃ err net', listenLoop os proto port addrs (held.map Prod.fst) net = (.error err, net') ∧
      net'.sockets = base ∧ ¬ Bindable os proto net.bound addrs port := by
  induction addrs generalizing net held with
  | nil =>
    left
    refine ⟨[], net, by simp [listenLoop], by simp [h], rfl, ?_⟩
    intro before addr after heq
    simp at heq
  | cons addr addrs ih =>
    rw [bindable_cons]
    cases hbind : os.bind net.bound ⟨proto, addr, port⟩ with
    | some err =>
      right
      refine ⟨err, (held.map Prod.fst).foldl Net.close net, ?_, Net.sockets_close_tail h, by simp⟩
      simp only [listenLoop, Net.listen, hbind]
    | none =>
      -- the new socket joins those that are held
      have hadd : (net.add ⟨proto, addr, port⟩).sockets =
          base ++ (held ++ [(net.next, ⟨proto, addr, port⟩)]) := by
        rw [← List.append_assoc, ← h]
        rfl
      have hloop : listenLoop os proto port (addr :: addrs) (held.map Prod.fst) net =
          listenLoop os proto port addrs
            ((held ++ [(net.next, (⟨proto, addr, port⟩ : Sock))]).map Prod.fst)
            (net.add ⟨proto, addr, port⟩) := by
        simp only [listenLoop, Net.listen, hbind, List.map_append]
        rfl
      rw [hloop, ← Net.bound_add]
      rcases ih hadd with ⟨new, net', hrun, hsockets, hnew, hbindable⟩ | ⟨err, net', hrun, hrest⟩
      · left
        refine ⟨(net.next, ⟨proto, addr, port⟩) :: new, net', ?_, ?_, ?_, rfl, hbindable⟩
        · rw [hrun, List.append_assoc]
          rfl
        · rw [hsockets]
          simp
        · rw [List.map_cons, hnew]
          rfl
      · right
        exact ⟨err, net', hrun, hrest.1, fun hall => hrest.2 hall.2⟩

/-- Both protocols run one loop. -/
theorem listenOnPort_eq (args : TsshdArgs) (addrs : List Addr) (net : Net) :
    listenOnPort os args addrs port net =
      ((listenLoop os args.proto port addrs [] net).1.map args.frontend,
        (listenLoop os args.proto port addrs [] net).2) := by
  unfold listenOnPort TsshdArgs.proto TsshdArgs.frontend tcpListenOnPort udpListenOnPort
  cases args.tcp <;> rfl

/-- **One attempt**: the connection of the arguments, or nothing is left open. -/
theorem listenOnPort_spec (args : TsshdArgs) (addrs : List Addr) (net : Net) :
    (∃ conn net', listenOnPort os args addrs port net = (.ok conn, net') ∧
      Opens args net.sockets addrs port conn net' ∧
      Bindable os args.proto net.bound addrs port) ∨
    ∃ err net', listenOnPort os args addrs port net = (.error err, net') ∧
      net'.sockets = net.sockets ∧ ¬ Bindable os args.proto net.bound addrs port := by
  have hbase : net.sockets = net.sockets ++ [] := (List.append_nil _).symm
  rw [listenOnPort_eq]
  rcases listenLoop_spec addrs hbase with
    ⟨new, net', hrun, hsockets, hnew, hbindable⟩ | ⟨err, net', hrun, hsockets, hbindable⟩
  · left
    rw [List.map_nil] at hrun
    rw [hrun]
    refine ⟨args.frontend (new.map Prod.fst), net', rfl, ⟨new, ?_, hnew, rfl⟩, hbindable⟩
    rw [hsockets, List.append_nil]
  · right
    rw [List.map_nil] at hrun
    rw [hrun]
    exact ⟨err, net', rfl, hsockets, hbindable⟩

end OnePort

/-! ## The addresses -/

section Addresses

variable {os : Os} {args : TsshdArgs}

/-- A test socket does not stay open. -/
theorem sockets_canListenOnIP (addr : Addr) (net : Net) :
    (canListenOnIP os args addr net).2.sockets = net.sockets := by
  unfold canListenOnIP Net.listen
  cases os.bind net.bound ⟨args.proto, addr, 0⟩ with
  | some err => rfl
  | none =>
    have hadd : (net.add ⟨args.proto, addr, 0⟩).sockets =
        net.sockets ++ [(net.next, ⟨args.proto, addr, 0⟩)] := rfl
    exact Net.sockets_close_tail hadd

theorem sockets_addIfListenable (addr : Addr) (s : List Addr × Net) :
    (addIfListenable os args addr s).2.sockets = s.2.sockets := by
  have htest : (canListenOnIP os args addr s.2).2.sockets = s.2.sockets :=
    sockets_canListenOnIP addr s.2
  unfold addIfListenable
  split
  all_goals
    next heq =>
      rw [heq] at htest
      exact htest

theorem sockets_addInterfaceAddr (name : Text) (s : List Addr × Net) (addr : IfAddr) :
    (addInterfaceAddr os args name s addr).2.sockets = s.2.sockets := by
  have hadd : ∀ ip, (addListenableAddr os args ip name s).2.sockets = s.2.sockets := by
    intro ip
    unfold addListenableAddr
    split
    · split
      · rfl
      · exact sockets_addIfListenable _ s
    · split
      · split
        · rfl
        · exact sockets_addIfListenable _ s
      · rfl
  cases addr with
  | ipNet ip => exact hadd ip
  | ipAddr ip => exact hadd ip
  | other => rfl

theorem sockets_interfaceAddrs (host : Host) (net : Net) :
    (interfaceAddrs os host args net).2.sockets = net.sockets := by
  -- what a step keeps, a fold keeps: first over an interface's addresses, then over interfaces
  have hfold : ∀ {α : Type} (f : List Addr × Net → α → List Addr × Net),
      (∀ s a, (f s a).2.sockets = s.2.sockets) →
      ∀ (l : List α) s, (l.foldl f s).2.sockets = s.2.sockets := by
    intro α f hf l
    induction l with
    | nil => exact fun _ => rfl
    | cons a l ih =>
      intro s
      rw [List.foldl_cons, ih, hf]
  refine hfold _ (fun s iface => ?_) _ _
  exact hfold _ (fun s addr => sockets_addInterfaceAddr iface.1 s addr) _ _

theorem sockets_sshConnectionListenable (host : Host) (net : Net) :
    (sshConnectionListenable os host args net).2.sockets = net.sockets := by
  unfold sshConnectionListenable
  split
  · rfl
  · split
    · rfl
    · exact sockets_canListenOnIP _ _

/-- **The addresses**: finding them leaves no socket open, and there is at least one. -/
theorem getUdpAddrs_spec (os : Os) (args : TsshdArgs) (host : Host) (net : Net) :
    (getUdpAddrs os host args net).2.sockets = net.sockets ∧
      ∀ addrs, (getUdpAddrs os host args net).1 = .ok addrs → addrs ≠ [] := by
  have hssh : (sshConnectionListenable os host args net).2.sockets = net.sockets :=
    sockets_sshConnectionListenable host net
  unfold getUdpAddrs
  split
  · next udpAddr net' heq =>
    rw [heq] at hssh
    exact ⟨hssh, fun addrs h => by cases h; simp⟩
  · next net' heq =>
    rw [heq] at hssh
    have hifaces : (interfaceAddrs os host args net').2.sockets = net'.sockets :=
      sockets_interfaceAddrs host net'
    split
    · next net'' heq' =>
      rw [heq'] at hifaces
      refine ⟨hifaces.trans hssh, fun addrs h => ?_⟩
      cases hresolve : host.resolveUDPAddr ":0".toList with
      | error err =>
        rw [hresolve] at h
        cases h
      | ok addr =>
        rw [hresolve] at h
        cases h
        simp
    · next udpAddrs net'' hne heq' =>
      rw [heq'] at hifaces
      refine ⟨hifaces.trans hssh, fun addrs h => ?_⟩
      cases h
      exact hne

end Addresses

/-! ## The search -/

/-- The ports a walk through a range visits. -/
def visited (low high : Nat) : Nat → Nat → List Nat
  | 0, _ => []
  | rounds + 1, port => port :: visited low high rounds (nextPort low high port)

/-- The ports of a range, in order. -/
def Range.ports (r : Range) : List Nat := List.range' r.1.toNat r.size

theorem visited_eq_map {low high port : Nat} (hlow : low ≤ port) (hhigh : port ≤ high)
    (rounds : Nat) :
    visited low high rounds port =
      (List.range rounds).map fun i => low + (port - low + i) % (high - low + 1) := by
  induction rounds generalizing port with
  | zero => rfl
  | succ rounds ih =>
    have hnext : low ≤ nextPort low high port ∧ nextPort low high port ≤ high := by
      unfold nextPort
      split <;> omega
    rw [visited, List.range_succ_eq_map, List.map_cons, List.map_map, ih hnext.1 hnext.2]
    congr 1
    · rw [Nat.add_zero, Nat.mod_eq_of_lt (by omega)]
      omega
    · refine List.map_congr_left fun i _ => ?_
      -- the step wraps around exactly where the remainder does
      have hmod : (nextPort low high port - low) % (high - low + 1) =
          (port - low + 1) % (high - low + 1) := by
        unfold nextPort
        split
        · have hend : port - low + 1 = high - low + 1 := by omega
          rw [hend, Nat.mod_self, Nat.sub_self, Nat.zero_mod]
        · rw [Nat.sub_add_comm hlow]
      show low + _ = low + (port - low + (i + 1)) % (high - low + 1)
      rw [Nat.add_mod, hmod, ← Nat.add_mod, Nat.add_assoc, Nat.add_comm 1 i]

/-- **A walk through a range** visits each of its ports once, wherever it starts. -/
theorem visited_perm {low high port : Nat} (hlow : low ≤ port) (hhigh : port ≤ high) :
    (visited low high (high - low + 1) port).Perm (List.range' low (high - low + 1)) := by
  have hrotate : (List.range (high - low + 1)).rotate (port - low) =
      (List.range (high - low + 1)).map fun i => (port - low + i) % (high - low + 1) := by
    refine List.ext_getElem (by simp) fun i hi _ => ?_
    rw [List.getElem_rotate]
    simp [Nat.add_comm]
  have hmap : visited low high (high - low + 1) port =
      ((List.range (high - low + 1)).rotate (port - low)).map (low + ·) := by
    rw [visited_eq_map hlow hhigh, hrotate, List.map_map]
    rfl
  rw [hmap, List.range'_eq_map_range]
  exact (List.rotate_perm _ _).map _

/-- What a search over a list of ports leaves: the first port that can be bound is open, or all
    of them were tried for nothing. -/
inductive Searched (os : Os) (args : TsshdArgs) (addrs : List Addr) (s : Search) :
    List Nat → Option (Frontend × Nat) × Search → Prop where
  | found {before after : List Nat} {port : Nat} {conn : Frontend} {s' : Search}
      (hports : ∀ p ∈ before, ¬ Bindable os args.proto s.net.bound addrs p)
      (hport : Bindable os args.proto s.net.bound addrs port)
      (hopens : Opens args s.net.sockets addrs port conn s'.net)
      (htried : s'.tried = s.tried ++ (before ++ [port])) :
      Searched os args addrs s (before ++ port :: after) (some (conn, port), s')
  | exhausted {ports : List Nat} {s' : Search}
      (hports : ∀ p ∈ ports, ¬ Bindable os args.proto s.net.bound addrs p)
      (hsockets : s'.net.sockets = s.net.sockets)
      (htried : s'.tried = s.tried ++ ports) :
      Searched os args addrs s ports (none, s')

section TheSearch

variable {os : Os} {args : TsshdArgs} {addrs : List Addr} {s s' : Search}

/-- A search that found nothing may be followed by another. -/
theorem Searched.append {ports more : List Nat} {out : Option (Frontend × Nat) × Search}
    (h : Searched os args addrs s ports (none, s')) (h' : Searched os args addrs s' more out) :
    Searched os args addrs s (ports ++ more) out := by
  obtain ⟨hports, hsockets, htried⟩ : (∀ p ∈ ports, ¬ Bindable os args.proto s.net.bound addrs p) ∧
      s'.net.sockets = s.net.sockets ∧ s'.tried = s.tried ++ ports := by
    cases h with
    | exhausted hports hsockets htried => exact ⟨hports, hsockets, htried⟩
  have hbound : s'.net.bound = s.net.bound := by rw [Net.bound, hsockets, Net.bound]
  cases h' with
  | found hports' hport hopens htried' =>
    rw [← List.append_assoc]
    rw [hbound] at hports' hport
    rw [hsockets] at hopens
    refine .found ?_ hport hopens (by rw [htried', htried]; simp)
    intro p hp
    rcases List.mem_append.mp hp with hp | hp
    · exact hports p hp
    · exact hports' p hp
  | exhausted hports' hsockets' htried' =>
    rw [hbound] at hports'
    refine .exhausted ?_ (hsockets'.trans hsockets) (by rw [htried', htried, List.append_assoc])
    intro p hp
    rcases List.mem_append.mp hp with hp | hp
    · exact hports p hp
    · exact hports' p hp

/-- Ports behind the one that was found do not matter. -/
theorem Searched.extend {ports : List Nat} {found : Frontend × Nat}
    (h : Searched os args addrs s ports (some found, s')) (more : List Nat) :
    Searched os args addrs s (ports ++ more) (some found, s') := by
  cases h with
  | found hports hport hopens htried =>
    rw [List.append_assoc, List.cons_append]
    exact .found hports hport hopens htried

theorem rangeLoop_searched (low high rounds port : Nat) (s : Search) :
    Searched os args addrs s (visited low high rounds port)
      (rangeLoop os args addrs low high rounds port s) := by
  induction rounds generalizing port s with
  | zero => exact .exhausted (by simp [visited]) rfl (by simp [visited])
  | succ rounds ih =>
    unfold rangeLoop visited
    rcases listenOnPort_spec args addrs s.net with
      ⟨conn, net', hrun, hopens, hbindable⟩ | ⟨err, net', hrun, hsockets, hbindable⟩
    · rw [hrun]
      exact Searched.found (List.forall_mem_nil _) hbindable hopens rfl
    · rw [hrun]
      have hone : Searched os args addrs s [port] (none, ⟨net', some err, s.tried ++ [port]⟩) :=
        .exhausted (by simpa using hbindable) hsockets rfl
      exact hone.append (ih (nextPort low high port) _)

/-- The ports that are tried in all ranges, in order. -/
def allVisited (rand : Nat → Nat) : List Range → Nat → List Nat
  | [], _ => []
  | r :: rs, k =>
    visited r.1.toNat r.2.toNat r.size (startPort rand k r) ++ allVisited rand rs (k + 1)

theorem rangesLoop_searched (rand : Nat → Nat) (rs : List Range) (k : Nat) (s : Search) :
    Searched os args addrs s (allVisited rand rs k) (rangesLoop os args addrs rand rs k s) := by
  induction rs generalizing k s with
  | nil => exact .exhausted (by simp [allVisited]) rfl (by simp [allVisited])
  | cons r rs ih =>
    have hrange : Searched os args addrs s
        (visited r.1.toNat r.2.toNat r.size (startPort rand k r))
        (rangeLoop os args addrs r.1.toNat r.2.toNat r.size (startPort rand k r) s) :=
      rangeLoop_searched _ _ _ _ s
    unfold rangesLoop allVisited
    split
    · next found s' hrun =>
      rw [hrun] at hrange
      exact hrange.extend _
    · next s' hrun =>
      rw [hrun] at hrange
      exact hrange.append (ih (k + 1) s')

theorem allVisited_perm (rand : Nat → Nat) (k : Nat) {rs : List Range}
    (hvalid : ∀ r ∈ rs, r.Valid) : (allVisited rand rs k).Perm (rs.flatMap Range.ports) := by
  induction rs generalizing k with
  | nil => exact .refl _
  | cons r rs ih =>
    have hr := hvalid r List.mem_cons_self
    have hstart : rand k % r.size < r.size := Nat.mod_lt _ (Nat.succ_pos _)
    rw [allVisited, List.flatMap_cons]
    refine .append (visited_perm (Nat.le_add_right _ _) ?_)
      (ih (k + 1) fun r' hr' => hvalid r' (List.mem_cons_of_mem _ hr'))
    unfold startPort
    unfold Range.size at *
    have := hr.2
    omega

theorem shuffle_perm (order : Nat → Nat) (i : Nat) (rs : List Range) :
    (shuffle order i rs).Perm rs := by
  induction i generalizing rs with
  | zero => exact .refl _
  | succ i ih => exact (ih _).trans (List.swap_perm _ _ _)

end TheSearch

/-- The ports the arguments allow. -/
def TsshdArgs.ports (args : TsshdArgs) : List Nat := args.portRanges.flatMap Range.ports

theorem portRanges_valid (args : TsshdArgs) : ∀ r ∈ args.portRanges, r.Valid :=
  parsePorts_valid args.tsshdPort

theorem mem_ports {args : TsshdArgs} {port : Nat} (h : port ∈ args.ports) :
    1 ≤ port ∧ port ≤ 65535 := by
  obtain ⟨r, hr, hport⟩ := List.mem_flatMap.mp h
  obtain ⟨hlow, hhigh⟩ := portRanges_valid args r hr
  rw [Range.ports, List.mem_range'_1, Range.size] at hport
  have hmax := r.2.toNat_lt
  omega

section Whole

variable {os : Os} {host : Host} {args : TsshdArgs} {net : Net}

/-- Without an address nothing is tried. -/
theorem listenOnFreePort_no_addr (order rand : Nat → Nat) {err : Text}
    (hget : (getUdpAddrs os host args net).1 = .error err) :
    (∃ msg, (listenOnFreePort os host order rand args net).result = .error msg) ∧
      (listenOnFreePort os host order rand args net).net.sockets = net.sockets ∧
      (listenOnFreePort os host order rand args net).tried = [] := by
  have hsockets := (getUdpAddrs_spec os args host net).1
  unfold listenOnFreePort
  split
  · exact ⟨⟨_, rfl⟩, rfl, rfl⟩
  · cases hrun : getUdpAddrs os host args net with
    | mk got net' =>
      rw [hrun] at hget hsockets
      cases hget
      exact ⟨⟨_, rfl⟩, hsockets, rfl⟩

/-- With addresses the allowed ports are searched, in some order. -/
theorem listenOnFreePort_searched (order rand : Nat → Nat) {addrs : List Addr}
    (hget : (getUdpAddrs os host args net).1 = .ok addrs) :
    ∃ ports found s', ports.Perm args.ports ∧
      Searched os args addrs ⟨net, none, []⟩ ports (found, s') ∧
      (listenOnFreePort os host order rand args net).net = s'.net ∧
      (listenOnFreePort os host order rand args net).tried = s'.tried ∧
      (∀ f, found = some f → (listenOnFreePort os host order rand args net).result = .ok f) ∧
      (found = none →
        ∃ msg, (listenOnFreePort os host order rand args net).result = .error msg) := by
  have hsockets := (getUdpAddrs_spec os args host net).1
  have hvalid := portRanges_valid args
  unfold listenOnFreePort TsshdArgs.ports
  cases hranges : args.portRanges with
  | nil =>
    refine ⟨[], none, ⟨net, none, []⟩, .refl _, .exhausted (List.forall_mem_nil _) rfl rfl, rfl,
      rfl, by simp, fun _ => ⟨_, rfl⟩⟩
  | cons r rs =>
    rw [hranges] at hvalid
    cases hrun : getUdpAddrs os host args net with
    | mk got net' =>
      rw [hrun] at hget hsockets
      cases hget
      have hshuffle := shuffle_perm order rs.length (r :: rs)
      have hperm := (allVisited_perm rand 0 fun r' hr' => hvalid r' (hshuffle.mem_iff.mp hr')).trans
        (hshuffle.flatMap_right Range.ports)
      have hsame : Searched os args addrs ⟨net, none, []⟩ [] (none, ⟨net', none, []⟩) :=
        .exhausted (List.forall_mem_nil _) hsockets rfl
      have hsearch := hsame.append
        (rangesLoop_searched rand (shuffle order rs.length (r :: rs)) 0 _)
      rw [List.nil_append] at hsearch
      simp only
      cases hloop : rangesLoop os args addrs rand (shuffle order rs.length (r :: rs)) 0
          ⟨net', none, []⟩ with
      | mk found s' =>
        rw [hloop] at hsearch
        refine ⟨_, found, s', hperm, hsearch, ?_⟩
        cases found with
        | some f => exact ⟨rfl, rfl, fun f' hf' => by cases hf'; rfl, by simp⟩
        | none =>
          simp only
          split
          · exact ⟨rfl, rfl, by simp, fun _ => ⟨_, rfl⟩⟩
          · exact ⟨rfl, rfl, by simp, fun _ => ⟨_, rfl⟩⟩

end Whole

/-- **The search finds a free port**: for every order of the ranges and every start, a
    connection is returned exactly where some allowed port can be bound at all addresses.  It
    then consists of one new socket for each address, all on one allowed port; otherwise the
    sockets of the process are those it had.  No port is tried twice for one range. -/
theorem listenOnFreePort_finds_free (os : Os) (host : Host) (order rand : Nat → Nat)
    (args : TsshdArgs) (net : Net) :
    let out := listenOnFreePort os host order rand args net
    ((∃ found, out.result = .ok found) ↔ ∃ addrs, (getUdpAddrs os host args net).1 = .ok addrs ∧
      ∃ port ∈ args.ports, Bindable os args.proto net.bound addrs port) ∧
    (∀ conn port, out.result = .ok (conn, port) → 1 ≤ port ∧ port ≤ 65535 ∧ port ∈ args.ports ∧
      ∃ addrs, addrs ≠ [] ∧ (getUdpAddrs os host args net).1 = .ok addrs ∧
        Opens args net.sockets addrs port conn out.net) ∧
    (∀ err, out.result = .error err → out.net.sockets = net.sockets) ∧
    ∃ untried, (out.tried ++ untried).Perm args.ports := by
  intro out
  cases hget : (getUdpAddrs os host args net).1 with
  | error err =>
    obtain ⟨⟨msg, hmsg⟩, hsockets, htried⟩ := listenOnFreePort_no_addr order rand hget
    refine ⟨⟨?_, ?_⟩, ?_, fun _ _ => hsockets, args.ports, ?_⟩
    · intro ⟨found, hfound⟩
      cases hmsg.symm.trans hfound
    · intro ⟨addrs, hok, _⟩
      cases hok
    · intro conn port hfound
      cases hmsg.symm.trans hfound
    · rw [htried]
      exact .refl _
  | ok addrs =>
    obtain ⟨ports, found, s', hperm, hsearch, hnet, htried, hsome, hnone⟩ :=
      listenOnFreePort_searched order rand hget
    rw [hnet, htried]
    cases hsearch with
    | @found before after port conn _ hports hport hopens htaken =>
      have hresult := hsome _ rfl
      have hmem : port ∈ args.ports := hperm.mem_iff.mp (by simp)
      refine ⟨⟨fun _ => ⟨addrs, rfl, port, hmem, hport⟩, fun _ => ⟨_, hresult⟩⟩, ?_, ?_, after, ?_⟩
      · intro conn' port' hfound
        cases hresult.symm.trans hfound
        obtain ⟨hlow, hhigh⟩ := mem_ports hmem
        exact ⟨hlow, hhigh, hmem, addrs, (getUdpAddrs_spec os args host net).2 addrs hget, rfl,
          hopens⟩
      · intro err herr
        cases hresult.symm.trans herr
      · simpa [htaken] using hperm
    | exhausted hports hsockets htaken =>
      obtain ⟨msg, hmsg⟩ := hnone rfl
      refine ⟨⟨?_, ?_⟩, ?_, fun _ _ => hsockets, [], ?_⟩
      · intro ⟨found, hfound⟩
        cases hmsg.symm.trans hfound
      · intro ⟨addrs', hok, port, hport, hbindable⟩
        cases hok
        exact absurd hbindable (hports port (hperm.mem_iff.mpr hport))
      · intro conn port hfound
        cases hmsg.symm.trans hfound
      · simpa [htaken] using hperm

end Ports
