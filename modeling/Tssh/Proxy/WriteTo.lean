import Tssh.Proxy.PacketCache
import Tssh.Rekey.Crypto

/-! # Sending a Packet through a Proxy

    QUIC and KCP send their packets through `WriteTo` of `clientProxy` (`tsshd/proxy_client.go`)
    or `serverProxy` (`tsshd/proxy_server.go`).  A packet for a peer that is timed out goes to
    the packet cache; otherwise it is sealed, in KCP mode, and given to the transport.  Both are
    `net.PacketConn`s, which have to report the length of the buffer they were given.

    The client waits in a loop until there is a backend connection, while connections come and
    go and the checker of the server times out and recovers: its call is a system in which all
    of that may change between any two steps.  The server does not wait: its call is a function
    of what its atomic loads return.

    The packet goes one way only in both.  The client rebinds `buf` to the sealed packet and
    reports the length of that, so what it reports is right in the runs in which it seals
    nothing (`writeTo_one_way`).
-/

open LTS Go Rekey

namespace WriteTo

/-! ## Where a packet goes -/

/-- The buffers given to `addPacket`, the calls of `sealPacket`, and the buffers given to the
    transport. -/
structure Way where
  cached : List Slice
  seals : Nat
  given : List Slice
  deriving DecidableEq, Repr

def Way.none : Way := { cached := [], seals := 0, given := [] }

/-- One way only: into the cache once if the peer is timed out, else sealed at most once and
    given away at most once. -/
def OneWay (timedOut : Bool) (buf : Slice) (w : Way) : Prop :=
  if timedOut then w = { Way.none with cached := [buf] }
  else w.cached = [] ∧ w.seals ≤ 1 ∧ w.given.length ≤ 1

/-! ## The client -/

/-- `clientProxy`, as far as `WriteTo` uses it.  `serverTimeout` is the flag of
    `serverChecker`, `kcpCrypto` is there in KCP mode only, and `closedConns` are the
    connections that were closed here. -/
structure ClientProxy (Key : Type) where
  closed : Bool
  serverTimeout : Bool
  enableDebugging : Bool
  cachingPkt : Bool
  shouldSample : Bool
  backendConn : Option Nat
  kcpCrypto : Option (RotatingCrypto Key)
  pktCache : PacketCaches.PacketCache
  closedConns : List Nat

/-- Where `WriteTo` is. -/
inductive Pc where
  | top
  | timeout
  | cache
  | direct
  | sampleLoad
  | sampleSwap
  | sample
  | conn
  | sealing (conn : Nat)
  | write (conn : Nat)
  | drop (conn : Nat)
  | wait
  | returned (n : Nat) (err : Option String)
  deriving DecidableEq, Repr

/-- The proxy, the memory and the call.  `buf` is the variable of the call.  Two fields are
    history: `timedOut` is whether the call found the server timed out, and `way` is where the
    packet went. -/
structure State (Key : Type) where
  proxy : ClientProxy Key
  heap : Heap
  buf : Slice
  pc : Pc
  timedOut : Bool
  way : Way

variable {Key : Type}

def start (p : ClientProxy Key) (h : Heap) (buf : Slice) : State Key where
  proxy := p
  heap := h
  buf := buf
  pc := .top
  timedOut := false
  way := .none

def eof : String := "EOF"

/-- What happens around the call, and its next step with the error of the write if it is one. -/
inductive Label (Key : Type) where
  | close
  | checker (timeout : Bool)
  | ticker
  | backend (conn : Option Nat)
  | rekey (crypto : RotatingCrypto Key)
  | call (writeErr : Option String)

variable (L : CryptoLib Key)

/-- The next step of `WriteTo`. -/
def callStep (s : State Key) (writeErr : Option String) : Option (State Key) :=
  let p := s.proxy
  match s.pc with
  | .top => some { s with pc := if p.closed then .returned 0 (some eof) else .timeout }
  | .timeout =>
    some { s with
      pc := if p.serverTimeout then .cache else .direct
      timedOut := p.serverTimeout }
  | .cache =>
    -- one step: nothing here depends on what other goroutines do between
    some { s with
      proxy := { p with
        cachingPkt := p.enableDebugging || p.cachingPkt
        pktCache := (PacketCaches.addPacket p.pktCache s.heap s.buf).1 }
      heap := (PacketCaches.addPacket p.pktCache s.heap s.buf).2
      pc := .returned s.buf.len none
      way := { s.way with cached := s.way.cached ++ [s.buf] } }
  | .direct =>
    some { s with
      proxy := { p with cachingPkt := !p.enableDebugging && p.cachingPkt }
      pc := .sampleLoad }
  | .sampleLoad => some { s with pc := if p.shouldSample then .sampleSwap else .conn }
  | .sampleSwap =>
    -- another call may have taken the sample since the load
    some { s with
      proxy := { p with shouldSample := false }
      pc := if p.shouldSample then .sample else .conn }
  | .sample =>
    some { s with
      proxy := { p with pktCache := (PacketCaches.addSample p.pktCache s.heap s.buf).1 }
      heap := (PacketCaches.addSample p.pktCache s.heap s.buf).2
      pc := .conn }
  | .conn =>
    match p.backendConn with
    | none => some { s with pc := .wait }
    | some conn => some { s with pc := if p.kcpCrypto.isSome then .sealing conn else .write conn }
  | .sealing conn =>
    match p.kcpCrypto with
    | none => none
    | some crypto =>
      let sealed := crypto.sealPacket L s.heap s.buf true
      let s := { s with
        proxy := { p with kcpCrypto := some sealed.2.2 }
        heap := sealed.2.1
        way := { s.way with seals := s.way.seals + 1 } }
      match sealed.1 with
      -- `buf` is `nil` here
      | .error _ => some { s with buf := Slice.empty, pc := .returned Slice.empty.len none }
      | .ok buf => some { s with buf := buf, pc := .write conn }
  | .write conn =>
    -- `buf` is the sealed packet by now, so its length is not that of the argument
    some { s with
      pc := if writeErr.isSome then .drop conn else .returned s.buf.len none
      way := { s.way with given := s.way.given ++ [s.buf] } }
  | .drop conn =>
    -- `CompareAndSwap(conn, nil)`: a reconnect may have put another connection there
    some { s with
      proxy := { p with
        backendConn := if p.backendConn = some conn then none else p.backendConn
        closedConns := if p.backendConn = some conn then p.closedConns ++ [conn]
          else p.closedConns }
      pc := .returned s.buf.len none }
  | .wait =>
    enabledIf (¬ (p.backendConn = none ∧ p.closed = false ∧ p.serverTimeout = false))
      { s with pc := .top }
  | .returned _ _ => none

def next (s : State Key) : Label Key → Option (State Key)
  | .close => some { s with proxy := { s.proxy with closed := true } }
  | .checker timeout => some { s with proxy := { s.proxy with serverTimeout := timeout } }
  | .ticker => some { s with proxy := { s.proxy with shouldSample := true } }
  | .backend conn => some { s with proxy := { s.proxy with backendConn := conn } }
  | .rekey crypto =>
    enabledIf (s.proxy.kcpCrypto.isSome = true)
      { s with proxy := { s.proxy with kcpCrypto := some crypto } }
  | .call writeErr => callStep L s writeErr

/-- One call of `WriteTo` on a proxy in any state. -/
def clientRuns (p : ClientProxy Key) (h : Heap) (buf : Slice) : System (State Key) (Label Key) :=
  .ofStep (start p h buf) (next L)

/-- The call does not find a backend connection in KCP mode. -/
def Unsealed (s : State Key) (l : Label Key) : Prop :=
  match l with
  | .call _ => s.pc = .conn → s.proxy.backendConn = none ∨ s.proxy.kcpCrypto.isSome = false
  | _ => True

instance (s : State Key) (l : Label Key) : Decidable (Unsealed s l) := by
  unfold Unsealed
  split <;> infer_instance

/-! ## The server -/

/-- A client of the server proxy with what the loads of the call return: `server` is the pointer
    with the flag of its checker and whether the call takes the sample. -/
structure ServerClient (Key : Type) where
  server : Option (Bool × Bool)
  cachingPkt : Bool
  kcpCrypto : Option (RotatingCrypto Key)
  pktCache : PacketCaches.PacketCache

/-- A call on the way out. -/
structure ServerResult (Key : Type) where
  n : Nat
  heap : Heap
  client : Option (ServerClient Key)
  timedOut : Bool
  way : Way

/-- The second half of `serverProxy.WriteTo`: seal and send. -/
def serverSend (c : ServerClient Key) (h : Heap) (buf : Slice) (n : Nat) : ServerResult Key :=
  match c.kcpCrypto with
  | none =>
    { n := n, heap := h, client := some c, timedOut := false
      way := { Way.none with given := [buf] } }
  | some crypto =>
    let sealed := crypto.sealPacket L h buf true
    let c := { c with kcpCrypto := some sealed.2.2 }
    match sealed.1 with
    -- here too the result is `n`, taken before `buf` changed
    | .error _ =>
      { n := n, heap := sealed.2.1, client := some c, timedOut := false
        way := { Way.none with seals := 1 } }
    | .ok buf =>
      { n := n, heap := sealed.2.1, client := some c, timedOut := false
        way := { Way.none with seals := 1, given := [buf] } }

/-- `serverProxy.WriteTo`.  The client is `none` for an address of another type and for an
    unknown client. -/
def serverWriteTo (enableDebugLogging : Bool) (client : Option (ServerClient Key)) (h : Heap)
    (buf : Slice) : ServerResult Key :=
  let n := buf.len
  match client with
  | none => { n := n, heap := h, client := none, timedOut := false, way := .none }
  | some c =>
    match c.server with
    | none => serverSend L c h buf n
    | some (true, _) =>
      { n := n
        heap := (PacketCaches.addPacket c.pktCache h buf).2
        client := some { c with
          cachingPkt := enableDebugLogging || c.cachingPkt
          pktCache := (PacketCaches.addPacket c.pktCache h buf).1 }
        timedOut := true
        way := { Way.none with cached := [buf] } }
    | some (false, sample) =>
      let c := { c with cachingPkt := !enableDebugLogging && c.cachingPkt }
      if sample then
        serverSend L { c with pktCache := (PacketCaches.addSample c.pktCache h buf).1 }
          (PacketCaches.addSample c.pktCache h buf).2 buf n
      else serverSend L c h buf n

/-! ## One way only -/

/-- Where the packet has gone so far, at each program point. -/
def WayAt (buf : Slice) (s : State Key) : Pc → Prop
  | .cache => s.timedOut = true ∧ s.way = .none ∧ s.buf = buf
  | .write _ => s.timedOut = false ∧ s.way.cached = [] ∧ s.way.seals ≤ 1 ∧ s.way.given = []
  | .drop _ => OneWay s.timedOut buf s.way
  | .returned _ _ => OneWay s.timedOut buf s.way
  | _ => s.timedOut = false ∧ s.way = .none ∧ s.buf = buf

theorem oneWay_none {buf : Slice} : OneWay false buf .none :=
  ⟨rfl, Nat.zero_le _, Nat.zero_le _⟩

theorem oneWay_cached {buf : Slice} : OneWay true buf { Way.none with cached := [buf] } := by
  rw [OneWay, if_pos rfl]

theorem WayAt.callStep {L : CryptoLib Key} {buf : Slice} {s s' : State Key}
    {writeErr : Option String} (hway : WayAt buf s s.pc) (h : callStep L s writeErr = some s') :
    WayAt buf s' s'.pc := by
  unfold WriteTo.callStep at h
  cases hpc : s.pc with
  | top =>
    rw [hpc] at h hway
    cases h
    dsimp only
    split
    -- the proxy is closed: nothing was done with the packet
    · obtain ⟨htimeout, hnone, -⟩ := hway
      show OneWay s.timedOut buf s.way
      rw [htimeout, hnone]
      exact oneWay_none
    · exact hway
  | timeout =>
    rw [hpc] at h hway
    obtain ⟨-, hnone, hbuf⟩ := hway
    cases h
    dsimp only
    split
    · next htimeout => exact ⟨htimeout, hnone, hbuf⟩
    · next htimeout => exact ⟨Bool.eq_false_iff.mpr htimeout, hnone, hbuf⟩
  | cache =>
    rw [hpc] at h hway
    obtain ⟨htimeout, hnone, hbuf⟩ := hway
    cases h
    -- the way of a packet during a timeout ends in the cache
    show OneWay s.timedOut buf { s.way with cached := s.way.cached ++ [s.buf] }
    rw [htimeout, hnone, hbuf]
    exact oneWay_cached
  | direct | sample | drop conn =>
    rw [hpc] at h hway
    cases h
    exact hway
  | sampleLoad | sampleSwap =>
    rw [hpc] at h hway
    cases h
    dsimp only
    split
    · exact hway
    · exact hway
  | conn =>
    rw [hpc] at h hway
    obtain ⟨htimeout, hnone, hbuf⟩ := hway
    dsimp only at h
    split at h
    · cases h
      exact ⟨htimeout, hnone, hbuf⟩
    · cases h
      dsimp only
      split
      · exact ⟨htimeout, hnone, hbuf⟩
      -- QUIC mode: the packet goes out as it is
      · refine ⟨htimeout, ?_⟩
        rw [hnone]
        exact ⟨rfl, Nat.zero_le _, rfl⟩
  | sealing conn =>
    rw [hpc] at h hway
    obtain ⟨htimeout, hnone, -⟩ := hway
    dsimp only at h
    split at h
    · cases h
    · split at h
      · cases h
        -- the packet could not be sealed, and goes nowhere
        show OneWay s.timedOut buf { s.way with seals := s.way.seals + 1 }
        rw [htimeout, hnone]
        exact ⟨rfl, Nat.le_refl _, Nat.zero_le _⟩
      · cases h
        refine ⟨htimeout, ?_⟩
        rw [hnone]
        exact ⟨rfl, Nat.le_refl _, rfl⟩
  | write conn =>
    rw [hpc] at h hway
    obtain ⟨htimeout, hcached, hseals, hgiven⟩ := hway
    -- whether the write fails or not, the connection got the packet once
    have honce : OneWay s.timedOut buf { s.way with given := s.way.given ++ [s.buf] } := by
      rw [htimeout, hgiven]
      exact ⟨hcached, hseals, Nat.le_refl _⟩
    cases h
    dsimp only
    split
    · exact honce
    · exact honce
  | wait =>
    rw [hpc] at h hway
    obtain ⟨-, rfl⟩ := enabledIf_eq_some h
    exact hway
  | returned n err =>
    rw [hpc] at h
    cases h

/-- What happens around the call changes the proxy only. -/
theorem next_around {L : CryptoLib Key} {s s' : State Key} {l : Label Key}
    (h : next L s l = some s') :
    (∃ writeErr, l = .call writeErr ∧ callStep L s writeErr = some s') ∨
      (∃ p, s' = { s with proxy := p } ∧ (s.proxy.closed = true → p.closed = true)) := by
  cases l with
  | call writeErr => exact .inl ⟨writeErr, rfl, h⟩
  | close =>
    cases h
    exact .inr ⟨_, rfl, fun _ => rfl⟩
  | rekey crypto =>
    obtain ⟨-, rfl⟩ := enabledIf_eq_some h
    exact .inr ⟨_, rfl, id⟩
  | _ =>
    cases h
    exact .inr ⟨_, rfl, id⟩

theorem wayAt_of_reachable {L : CryptoLib Key} {p : ClientProxy Key} {h : Heap} {buf : Slice}
    {s : State Key} (hs : (clientRuns L p h buf).Reachable s) : WayAt buf s s.pc := by
  have hstart : WayAt buf (start p h buf) .top := ⟨rfl, rfl, rfl⟩
  refine System.invariant_ofStep (I := fun s => WayAt buf s s.pc) hstart
    (fun s l s' hway hnext => ?_) hs
  rcases next_around hnext with ⟨writeErr, -, hcall⟩ | ⟨p, rfl, -⟩
  · exact hway.callStep hcall
  · show WayAt buf _ s.pc
    cases hpc : s.pc with
    | _ =>
      rw [hpc] at hway
      exact hway

/-! ## The reported length -/

/-- `buf` is still the buffer of the caller, and what was returned is its length or the end of
    file. -/
structure Plain (buf : Slice) (s : State Key) : Prop where
  kept : s.buf = buf
  unsealed : ∀ conn, s.pc ≠ .sealing conn
  back : ∀ n err, s.pc = .returned n err →
    (err = none ∧ n = buf.len) ∨ (err = some eof ∧ n = 0 ∧ s.proxy.closed = true)

theorem Plain.callStep {L : CryptoLib Key} {buf : Slice} {s s' : State Key}
    {writeErr : Option String} (hplain : Plain buf s) (hok : Unsealed s (.call writeErr))
    (h : callStep L s writeErr = some s') : Plain buf s' := by
  have hlen : s.buf.len = buf.len := by rw [hplain.kept]
  unfold WriteTo.callStep at h
  cases hpc : s.pc with
  | top =>
    rw [hpc] at h
    cases h
    split
    · next hclosed =>
      refine ⟨hplain.kept, nofun, ?_⟩
      intro n err hret
      cases hret
      exact .inr ⟨rfl, rfl, hclosed⟩
    · exact ⟨hplain.kept, nofun, nofun⟩
  | timeout | sampleLoad | sampleSwap =>
    rw [hpc] at h
    cases h
    split
    · exact ⟨hplain.kept, nofun, nofun⟩
    · exact ⟨hplain.kept, nofun, nofun⟩
  | cache | drop conn =>
    rw [hpc] at h
    cases h
    refine ⟨hplain.kept, nofun, ?_⟩
    intro n err hret
    cases hret
    exact .inl ⟨rfl, hlen⟩
  | direct | sample =>
    rw [hpc] at h
    cases h
    exact ⟨hplain.kept, nofun, nofun⟩
  | conn =>
    have hmode := hok hpc
    rw [hpc] at h
    dsimp only at h
    split at h
    · cases h
      exact ⟨hplain.kept, nofun, nofun⟩
    · next conn hconn =>
      cases h
      -- there is a connection, so the condition excludes KCP mode
      have hquic : s.proxy.kcpCrypto.isSome = false :=
        hmode.resolve_left (by rw [hconn]; nofun)
      simp only [hquic]
      exact ⟨hplain.kept, nofun, nofun⟩
  | sealing conn => exact absurd hpc (hplain.unsealed conn)
  | write conn =>
    rw [hpc] at h
    cases h
    split
    · exact ⟨hplain.kept, nofun, nofun⟩
    · refine ⟨hplain.kept, nofun, ?_⟩
      intro n err hret
      cases hret
      exact .inl ⟨rfl, hlen⟩
  | wait =>
    rw [hpc] at h
    obtain ⟨-, rfl⟩ := enabledIf_eq_some h
    exact ⟨hplain.kept, nofun, nofun⟩
  | returned n err =>
    rw [hpc] at h
    cases h

theorem plain_of_reachable {L : CryptoLib Key} {p : ClientProxy Key} {h : Heap} {buf : Slice}
    {s : State Key} (hs : ((clientRuns L p h buf).restrict Unsealed).Reachable s) :
    Plain buf s := by
  have hstart : Plain buf (start p h buf) := ⟨rfl, nofun, nofun⟩
  refine System.invariant_restrict hstart (fun s l s' hplain hok hnext => ?_) hs
  rcases next_around hnext with ⟨writeErr, rfl, hcall⟩ | ⟨p, rfl, hclosed⟩
  · exact hplain.callStep hok hcall
  · refine ⟨hplain.kept, hplain.unsealed, ?_⟩
    intro n err hret
    rcases hplain.back n err hret with hok | ⟨herr, hn, hshut⟩
    · exact .inl hok
    · exact .inr ⟨herr, hn, hclosed hshut⟩

/-! ## The server -/

theorem serverSend_way (c : ServerClient Key) (h : Heap) (buf buf' : Slice) (n : Nat) :
    (serverSend L c h buf n).n = n ∧ (serverSend L c h buf n).timedOut = false ∧
      OneWay false buf' (serverSend L c h buf n).way := by
  unfold serverSend
  split
  · exact ⟨rfl, rfl, rfl, Nat.zero_le _, Nat.le_refl _⟩
  · dsimp only
    split
    · exact ⟨rfl, rfl, rfl, Nat.le_refl _, Nat.zero_le _⟩
    · exact ⟨rfl, rfl, rfl, Nat.le_refl _, Nat.le_refl _⟩

/-- The server keeps the length it was given. -/
theorem serverWriteTo_way (debug : Bool) (client : Option (ServerClient Key)) (h : Heap)
    (buf : Slice) :
    (serverWriteTo L debug client h buf).n = buf.len ∧
      OneWay (serverWriteTo L debug client h buf).timedOut buf
        (serverWriteTo L debug client h buf).way := by
  have hsend : ∀ (c : ServerClient Key) (h : Heap),
      (serverSend L c h buf buf.len).n = buf.len ∧
        OneWay (serverSend L c h buf buf.len).timedOut buf (serverSend L c h buf buf.len).way := by
    intro c h
    obtain ⟨hn, htimeout, hway⟩ := serverSend_way L c h buf buf buf.len
    exact ⟨hn, by rw [htimeout]; exact hway⟩
  unfold serverWriteTo
  split
  · exact ⟨rfl, oneWay_none⟩
  · split
    · exact hsend _ _
    · exact ⟨rfl, oneWay_cached⟩
    · dsimp only
      split
      · exact hsend _ _
      · exact hsend _ _

/-! ## Results -/

/-- **`WriteTo`**: on the client the packet goes one way only, in every run, and in the runs in
    which the call finds no backend connection in KCP mode it reports the length of its buffer
    or, on a closed proxy, the end of file.  On the server both hold always. -/
theorem writeTo_one_way :
    (∀ (p : ClientProxy Key) (h : Heap) (buf : Slice) (s : State Key),
      (clientRuns L p h buf).Reachable s → ∀ n err, s.pc = .returned n err →
        OneWay s.timedOut buf s.way ∧
        (((clientRuns L p h buf).restrict Unsealed).Reachable s →
          (err = none ∧ n = buf.len) ∨
            (err = some eof ∧ n = 0 ∧ s.proxy.closed = true))) ∧
    ∀ (debug : Bool) (client : Option (ServerClient Key)) (h : Heap) (buf : Slice),
      (serverWriteTo L debug client h buf).n = buf.len ∧
        OneWay (serverWriteTo L debug client h buf).timedOut buf
          (serverWriteTo L debug client h buf).way := by
  refine ⟨?_, serverWriteTo_way L⟩
  intro p h buf s hs n err hret
  have hway := wayAt_of_reachable hs
  rw [hret] at hway
  exact ⟨hway, fun hplain => (plain_of_reachable hplain).back n err hret⟩

/-- A client proxy with a backend connection, in QUIC mode or with a cipher. -/
def connected (kcpCrypto : Option (RotatingCrypto UInt8)) : ClientProxy UInt8 where
  closed := false
  serverTimeout := false
  enableDebugging := false
  cachingPkt := false
  shouldSample := false
  backendConn := some 3
  kcpCrypto := kcpCrypto
  pktCache := .new
  closedConns := []

/-- In KCP mode a packet of 13 bytes is reported as 29. -/
theorem sealed_write_reports_29 :
    ∃ s, (clientRuns RotatingCrypto.xorLib (connected (some (RotatingCrypto.underKeyOne false)))
        RotatingCrypto.plainHeap RotatingCrypto.plainBuf).Reachable s ∧
      RotatingCrypto.plainBuf.len = 13 ∧ s.pc = .returned 29 none := by
  obtain ⟨s, hrun, hret⟩ : ∃ s, runLabels (next RotatingCrypto.xorLib)
      (start (connected (some (RotatingCrypto.underKeyOne false))) RotatingCrypto.plainHeap
        RotatingCrypto.plainBuf) (List.replicate 7 (.call none)) = some s ∧
      s.pc = .returned 29 none := exists_of_runLabels (by decide +kernel)
  exact ⟨s, .of_runLabels (fun _ _ _ h => h) (.init rfl) hrun, rfl, hret⟩

/-- In QUIC mode a write that fails drops the connection and reports the length. -/
theorem failed_write_reports_13 :
    ∃ s, (clientRuns RotatingCrypto.xorLib (connected none) RotatingCrypto.plainHeap
        RotatingCrypto.plainBuf).Reachable s ∧ s.pc = .returned 13 none ∧
      OneWay s.timedOut RotatingCrypto.plainBuf s.way ∧ 13 = RotatingCrypto.plainBuf.len := by
  obtain ⟨s, hrun, hret⟩ : ∃ s, runLabels
      (fun s l => if Unsealed s l then next RotatingCrypto.xorLib s l else none)
      (start (connected none) RotatingCrypto.plainHeap RotatingCrypto.plainBuf)
      (List.replicate 7 (.call (some "broken pipe"))) = some s ∧
      s.pc = .returned 13 none := exists_of_runLabels (by decide +kernel)
  have hs := System.Reachable.of_runLabels_restrict hrun
  obtain ⟨hway, hlen⟩ :=
    (writeTo_one_way RotatingCrypto.xorLib).1 _ _ _ s hs.of_restrict 13 none hret
  rcases hlen hs with ⟨-, hn⟩ | ⟨herr, -⟩
  · exact ⟨s, hs.of_restrict, hret, hway, hn⟩
  · cases herr

end WriteTo
