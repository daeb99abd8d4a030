import Tssh.Framework.System
import Mathlib.Logic.Function.Basic

/-! # Channels of a UDP Forwarder

    A `udpForwarder` (`tsshd/datagram.go`) delivers datagrams to the channels in its
    `channelMap`.  Three functions set up a `packetConn`, which registers such a channel:
    `handleDialUdpEvent` on the server, `DialUDP` and `AcceptUDP` on the client
    (`tsshd/client.go`).  Each opens a socket or a stream first and exchanges messages with the
    other side afterwards, and every message may fail.

    `packetConn.Close` queues the id of the channel in `closingCh`, from where a worker
    goroutine removes it.  Of the three functions only `DialUDP` calls it when a message fails:
    `AcceptUDP` closes its stream and leaves the channel, `handleDialUdpEvent` leaves the channel
    and the socket.

    * `failed_setup_releases`: which failures release what the function acquired, and that
      the map holds no channel of an ended call in the runs in which all of them do.
-/

open LTS

namespace UdpChannels

/-! ## Calls -/

inductive Func where
  | handleDialUdpEvent
  | DialUDP
  | AcceptUDP
  deriving DecidableEq, Repr

/-- How a call with a `packetConn` ended: with an error, or in use and closed later. -/
inductive End where
  | failed
  | done
  deriving DecidableEq, Repr

/-- Where a call is.  `opening`: before the socket or the stream is open; `requesting`: at the
    request of `DialUDP`; `refused`: ended with an error before `newPacketConn`; `creating`:
    before `newPacketConn`; `created` and `acked`: before the first and the second message after
    it; `closing`: in `packetConn.Close`. -/
inductive Pc where
  | idle
  | opening
  | requesting
  | refused
  | creating
  | created
  | acked
  | inUse
  | closing (result : End)
  | ended (result : End)
  deriving DecidableEq, Repr

/-- The socket that `handleDialUdpEvent` dials, or the stream that a client function opens. -/
inductive Resource where
  | absent
  | opened
  | closed
  deriving DecidableEq, Repr

structure Call where
  func : Func
  pc : Pc
  resource : Resource
  channelID : Nat
  deriving DecidableEq, Repr

/-- What follows when the socket or stream could be opened, or not. -/
def Call.open (x : Call) (ok : Bool) : Call :=
  if ok then
    { x with resource := .opened, pc := if x.func = .DialUDP then .requesting else .creating }
  else { x with pc := .refused }

/-- The request of `DialUDP` and its response. -/
def Call.request (x : Call) (ok : Bool) : Call :=
  if ok then { x with pc := .creating }
  else { x with resource := .closed, pc := .refused }

/-- A message after `newPacketConn`.  `handleDialUdpEvent` sends its response and receives the
    ready message, `DialUDP` sends the ready message, `AcceptUDP` sends the accept message and
    receives the answer. -/
def Call.exchange (x : Call) (ok : Bool) : Call :=
  match x.func, ok with
  | .handleDialUdpEvent, true => { x with pc := if x.pc = .created then .acked else .inUse }
  -- a warning and a return
  | .handleDialUdpEvent, false => { x with pc := .ended .failed }
  | .DialUDP, true => { x with pc := .inUse }
  -- `conn.Close()`
  | .DialUDP, false => { x with pc := .closing .failed }
  | .AcceptUDP, true => { x with pc := if x.pc = .created then .acked else .inUse }
  -- `stream.Close()`
  | .AcceptUDP, false => { x with resource := .closed, pc := .ended .failed }

/-- The connection is no longer used.  `forwardUDP` closes the socket first and then the
    `packetConn`. -/
def Call.close (x : Call) : Call :=
  match x.func with
  | .handleDialUdpEvent => { x with resource := .closed, pc := .closing .done }
  | _ => { x with pc := .closing .done }

/-! ## The forwarder -/

/-- One side with its forwarder, which may be nil.  `channelMap` has the call whose `packetConn`
    made the channel. -/
structure State where
  forwarder : Bool
  channelMap : Nat → Option Nat
  closingCh : List Nat
  closed : Bool
  /-- An `atomic.Uint64`; the runs are those with fewer than 2^64 channels. -/
  nextUdpFwdChannelID : Nat
  calls : Nat → Call

def start (forwarder : Bool) : State where
  forwarder := forwarder
  channelMap := fun _ => none
  closingCh := []
  closed := false
  nextUdpFwdChannelID := 0
  calls := fun _ => ⟨.DialUDP, .idle, .absent, 0⟩

def State.setCall (s : State) (c : Nat) (x : Call) : State :=
  { s with calls := Function.update s.calls c x }

/-- `addChannel` and `removeChannel` have an effect. -/
def State.running (s : State) : Bool := s.forwarder && !s.closed

/-- `addChannel`. -/
def State.addChannel (s : State) (id c : Nat) : State :=
  { s with
    channelMap := if s.running then Function.update s.channelMap id (some c) else s.channelMap }

/-- `removeChannel`. -/
def State.removeChannel (s : State) (id : Nat) : State :=
  { s with closingCh := if s.running then s.closingCh ++ [id] else s.closingCh }

/-- `newPacketConn`.  The server takes the id from its counter, a client the one it was sent. -/
def State.newPacketConn (s : State) (c sent : Nat) : State :=
  match (s.calls c).func with
  | .handleDialUdpEvent =>
    let id := s.nextUdpFwdChannelID + 1
    { (s.setCall c { s.calls c with pc := .created, channelID := id }).addChannel id c with
      nextUdpFwdChannelID := id }
  | _ => (s.setCall c { s.calls c with pc := .created, channelID := sent }).addChannel sent c

/-- `packetConn.Close`. -/
def State.closePacketConn (s : State) (c : Nat) (result : End) : State :=
  (s.setCall c { s.calls c with resource := .closed, pc := .ended result }).removeChannel
    (s.calls c).channelID

inductive Label where
  | call (c : Nat) (func : Func)
  | open (c : Nat) (ok : Bool)
  | request (c : Nat) (ok : Bool)
  | newPacketConn (c sent : Nat)
  | exchange (c : Nat) (ok : Bool)
  | close (c : Nat)
  | closePacketConn (c : Nat)
  /-- The worker receives from `closingCh`. -/
  | worker
  /-- `Close` of the forwarder. -/
  | closeForwarder
  deriving DecidableEq, Repr

def next (s : State) : Label → Option State
  | .call c func => enabledIf ((s.calls c).pc = .idle) (s.setCall c ⟨func, .opening, .absent, 0⟩)
  | .open c ok => enabledIf ((s.calls c).pc = .opening) (s.setCall c ((s.calls c).open ok))
  | .request c ok =>
    enabledIf ((s.calls c).pc = .requesting) (s.setCall c ((s.calls c).request ok))
  | .newPacketConn c sent => enabledIf ((s.calls c).pc = .creating) (s.newPacketConn c sent)
  | .exchange c ok =>
    enabledIf ((s.calls c).pc = .created ∨ (s.calls c).pc = .acked)
      (s.setCall c ((s.calls c).exchange ok))
  | .close c => enabledIf ((s.calls c).pc = .inUse) (s.setCall c (s.calls c).close)
  | .closePacketConn c =>
    match (s.calls c).pc with
    -- the send on `closingCh` waits for one of its ten places
    | .closing result =>
      enabledIf (s.running = true → s.closingCh.length < 10) (s.closePacketConn c result)
    | _ => none
  | .worker =>
    -- `LoadAndDelete`, also while the worker drains `closingCh` before it exits
    match s.closingCh with
    | [] => none
    | id :: rest =>
      some { s with channelMap := Function.update s.channelMap id none, closingCh := rest }
  | .closeForwarder => some { s with closed := true }

/-- A server or a client, with a forwarder or without. -/
def side (forwarder : Bool) : System State Label := .ofStep (start forwarder) next

/-! ## The condition -/

/-- The channel of the call is not registered, or its id waits in `closingCh`. -/
def State.Removing (s : State) (c : Nat) : Prop :=
  s.channelMap (s.calls c).channelID = some c → (s.calls c).channelID ∈ s.closingCh

instance (s : State) (c : Nat) : Decidable (s.Removing c) := by
  unfold State.Removing
  infer_instance

/-- No message of `handleDialUdpEvent` fails; no message of `AcceptUDP` fails that has registered
    its channel; no `packetConn` with a registered channel is closed after the forwarder. -/
def Releases (s : State) : Label → Prop
  | .exchange c false =>
    match (s.calls c).func with
    | .handleDialUdpEvent => False
    | .DialUDP => True
    | .AcceptUDP => s.Removing c
  | .closePacketConn c => s.closed = false ∨ s.Removing c
  | _ => True

instance (s : State) (l : Label) : Decidable (Releases s l) := by
  unfold Releases
  split
  · split <;> infer_instance
  · infer_instance
  · infer_instance

/-! ## What the calls own -/

/-- The call has created its `packetConn`. -/
def Pc.hasPacketConn : Pc → Bool
  | .created => true
  | .acked => true
  | .inUse => true
  | .closing _ => true
  | .ended _ => true
  | _ => false

/-- The call has opened its socket or stream and is setting up the connection. -/
def Pc.settingUp : Pc → Bool
  | .requesting => true
  | .creating => true
  | .created => true
  | .acked => true
  | _ => false

/-- A call without a `packetConn` moves on and gets none; while it sets up, it has its socket or
    stream open. -/
structure Call.Moves (x y : Call) : Prop where
  before : x.pc.hasPacketConn = false
  after : y.pc.hasPacketConn = false
  opened : y.pc.settingUp = true →
    y.resource = .opened ∨ x.pc.settingUp = true ∧ y.resource = x.resource

/-- What a step does. -/
inductive Step (s : State) : Label → State → Prop where
  | early {l : Label} (c : Nat) (y : Call) : (s.calls c).Moves y → Step s l (s.setCall c y)
  | newPacketConn (c sent : Nat) :
      (s.calls c).pc = .creating → Step s (.newPacketConn c sent) (s.newPacketConn c sent)
  | exchange (c : Nat) (ok : Bool) :
      (s.calls c).pc.settingUp = true →
        Step s (.exchange c ok) (s.setCall c ((s.calls c).exchange ok))
  | close (c : Nat) :
      (s.calls c).pc = .inUse → Step s (.close c) (s.setCall c (s.calls c).close)
  | closePacketConn (c : Nat) (result : End) :
      (s.calls c).pc = .closing result →
        Step s (.closePacketConn c) (s.closePacketConn c result)
  | worker (id : Nat) (rest : List Nat) :
      s.closingCh = id :: rest →
        Step s .worker
          { s with channelMap := Function.update s.channelMap id none, closingCh := rest }
  | closeForwarder : Step s .closeForwarder { s with closed := true }

variable {s s' : State} {l : Label} {c : Nat} {x : Call}

theorem step_of_next (hnext : next s l = some s') : Step s l s' := by
  cases l with
  | call c func =>
    obtain ⟨hpc, rfl⟩ := enabledIf_eq_some hnext
    exact .early c _ ⟨by rw [hpc]; rfl, rfl, fun h => by cases h⟩
  | «open» c ok =>
    obtain ⟨hpc, rfl⟩ := enabledIf_eq_some hnext
    refine .early c _ ⟨by rw [hpc]; rfl, ?_, ?_⟩
    · cases ok with
      | true =>
        simp only [Call.open, if_true]
        split <;> rfl
      | false => rfl
    · cases ok with
      | true => exact fun _ => .inl rfl
      | false => exact fun h => by cases h
  | request c ok =>
    obtain ⟨hpc, rfl⟩ := enabledIf_eq_some hnext
    refine .early c _ ⟨by rw [hpc]; rfl, ?_, ?_⟩
    · cases ok <;> rfl
    · cases ok with
      | true => exact fun _ => .inr ⟨by rw [hpc]; rfl, rfl⟩
      | false => exact fun h => by cases h
  | newPacketConn c sent =>
    obtain ⟨hpc, rfl⟩ := enabledIf_eq_some hnext
    exact .newPacketConn c sent hpc
  | exchange c ok =>
    obtain ⟨hpc, rfl⟩ := enabledIf_eq_some hnext
    exact .exchange c ok (by rcases hpc with hpc | hpc <;> rw [hpc] <;> rfl)
  | close c =>
    obtain ⟨hpc, rfl⟩ := enabledIf_eq_some hnext
    exact .close c hpc
  | closePacketConn c =>
    simp only [next] at hnext
    split at hnext
    · next result hpc =>
      obtain ⟨_, rfl⟩ := enabledIf_eq_some hnext
      exact .closePacketConn c result hpc
    · cases hnext
  | worker =>
    simp only [next] at hnext
    split at hnext
    · cases hnext
    · next id rest hqueue =>
      cases hnext
      exact .worker id rest hqueue
  | closeForwarder =>
    cases hnext
    exact .closeForwarder

theorem calls_setCall_self : (s.setCall c x).calls c = x := Function.update_self ..

theorem calls_setCall_ne {d : Nat} (hne : d ≠ c) : (s.setCall c x).calls d = s.calls d :=
  Function.update_of_ne hne ..

structure Owns (s : State) : Prop where
  own : ∀ id c, s.channelMap id = some c →
    (s.calls c).channelID = id ∧ (s.calls c).pc.hasPacketConn = true
  opened : ∀ c, (s.calls c).pc.settingUp = true → (s.calls c).resource = .opened
  noForwarder : s.forwarder = false → ∀ id, s.channelMap id = none

theorem start_owns (forwarder : Bool) : Owns (start forwarder) where
  own := fun _ _ h => by cases h
  opened := fun _ h => by cases h
  noForwarder := fun _ _ => rfl

/-- The only channel of a call is the one with its id. -/
theorem Owns.removing_iff (h : Owns s) :
    s.Removing c ↔ ∀ id, s.channelMap id = some c → id ∈ s.closingCh := by
  constructor
  · intro hrem id hid
    obtain ⟨rfl, _⟩ := h.own id c hid
    exact hrem hid
  · intro hall
    exact hall _

/-- A call moves on: it keeps its id once it has a `packetConn`. -/
theorem Owns.setCall (h : Owns s)
    (hid : (s.calls c).pc.hasPacketConn = true →
      x.channelID = (s.calls c).channelID ∧ x.pc.hasPacketConn = true)
    (hopened : x.pc.settingUp = true → x.resource = .opened) : Owns (s.setCall c x) := by
  refine ⟨?_, ?_, h.noForwarder⟩
  · intro id d hd
    obtain ⟨hown, hconn⟩ := h.own id d hd
    by_cases hdc : d = c
    · subst hdc
      rw [calls_setCall_self]
      obtain ⟨hsame, hpast⟩ := hid hconn
      exact ⟨hsame.trans hown, hpast⟩
    · rw [calls_setCall_ne hdc]
      exact ⟨hown, hconn⟩
  · intro d
    by_cases hdc : d = c
    · subst hdc
      rw [calls_setCall_self]
      exact hopened
    · rw [calls_setCall_ne hdc]
      exact h.opened d

/-- An entry after `addChannel` is the new one or an old one. -/
theorem mem_addChannel {id id' d : Nat} (h : (s.addChannel id c).channelMap id' = some d) :
    (s.forwarder = true ∧ id' = id ∧ d = c) ∨ s.channelMap id' = some d := by
  simp only [State.addChannel] at h
  split at h
  · next hrunning =>
    by_cases hid : id' = id
    · rw [hid, Function.update_self] at h
      exact .inl ⟨(Bool.and_eq_true_iff.mp hrunning).1, hid, (Option.some.inj h).symm⟩
    · rw [Function.update_of_ne hid] at h
      exact .inr h
  · exact .inr h

theorem Owns.addChannel (h : Owns s) (id : Nat) (hid : (s.calls c).channelID = id)
    (hconn : (s.calls c).pc.hasPacketConn = true) : Owns (s.addChannel id c) := by
  refine ⟨?_, h.opened, ?_⟩
  · intro id' d hd
    rcases mem_addChannel hd with ⟨_, rfl, rfl⟩ | hold
    · exact ⟨hid, hconn⟩
    · exact h.own id' d hold
  · intro hnil id'
    have hnil : s.forwarder = false := hnil
    cases hd : (s.addChannel id c).channelMap id' with
    | none => rfl
    | some d =>
      rcases mem_addChannel hd with ⟨hforwarder, _⟩ | hold
      · rw [hnil] at hforwarder
        cases hforwarder
      · rw [h.noForwarder hnil id'] at hold
        cases hold

/-- The calls stay and the map does not grow. -/
theorem Owns.shrink (h : Owns s) (hcalls : s'.calls = s.calls)
    (hforwarder : s'.forwarder = s.forwarder)
    (hmap : ∀ id c, s'.channelMap id = some c → s.channelMap id = some c) : Owns s' := by
  refine ⟨?_, ?_, ?_⟩
  · intro id c hid
    rw [hcalls]
    exact h.own id c (hmap id c hid)
  · rw [hcalls]
    exact h.opened
  · intro hnil id
    rw [hforwarder] at hnil
    cases hid : s'.channelMap id with
    | none => rfl
    | some c =>
      have hold := hmap id c hid
      rw [h.noForwarder hnil id] at hold
      cases hold

/-- What the worker leaves in the map was there before, under another id. -/
theorem mem_update_none {m : Nat → Option Nat} {id id' d : Nat}
    (h : Function.update m id none id' = some d) : id' ≠ id ∧ m id' = some d := by
  by_cases hid : id' = id
  · rw [hid, Function.update_self] at h
    cases h
  · rw [Function.update_of_ne hid] at h
    exact ⟨hid, h⟩

/-! ### Steps -/

/-- What `newPacketConn` does, on both sides: the call has an id, which is registered. -/
theorem newPacketConn_eq (s : State) (c sent : Nat) :
    ∃ id n, s.newPacketConn c sent =
      { (s.setCall c { s.calls c with pc := .created, channelID := id }).addChannel id c with
        nextUdpFwdChannelID := n } := by
  unfold State.newPacketConn
  split
  · exact ⟨_, _, rfl⟩
  · exact ⟨sent, s.nextUdpFwdChannelID, rfl⟩

theorem Owns.newPacketConn (h : Owns s) (hpc : (s.calls c).pc = .creating) (sent : Nat) :
    Owns (s.newPacketConn c sent) := by
  obtain ⟨id, n, heq⟩ := newPacketConn_eq s c sent
  rw [heq]
  have hcall : Owns (s.setCall c { s.calls c with pc := .created, channelID := id }) := by
    apply h.setCall
    · intro hconn
      rw [hpc] at hconn
      cases hconn
    · exact fun _ => h.opened c (by rw [hpc]; rfl)
  have hadd := hcall.addChannel (c := c) id (by rw [calls_setCall_self])
    (by rw [calls_setCall_self]; rfl)
  exact hadd.shrink rfl rfl fun _ _ hid => hid

/-- A message keeps the id of a call. -/
theorem exchange_keeps (x : Call) (ok : Bool) :
    (x.exchange ok).channelID = x.channelID ∧ (x.exchange ok).pc.hasPacketConn = true := by
  unfold Call.exchange
  split
  · split <;> exact ⟨rfl, rfl⟩
  · exact ⟨rfl, rfl⟩
  · exact ⟨rfl, rfl⟩
  · exact ⟨rfl, rfl⟩
  · split <;> exact ⟨rfl, rfl⟩
  · exact ⟨rfl, rfl⟩

/-- A call that is still setting up after a message has its resource as before. -/
theorem exchange_settingUp {ok : Bool} (h : (x.exchange ok).pc.settingUp = true) :
    (x.exchange ok).resource = x.resource := by
  cases hfunc : x.func <;> cases ok <;> simp only [Call.exchange, hfunc] at h ⊢
  -- only a failing `AcceptUDP` closes its stream here, and it has ended
  cases h

theorem close_keeps (x : Call) :
    x.close.channelID = x.channelID ∧ ∃ result, x.close.pc = .closing result := by
  unfold Call.close
  split <;> exact ⟨rfl, _, rfl⟩

theorem Owns.step (h : Owns s) (hstep : Step s l s') : Owns s' := by
  cases hstep with
  | early c y hmoves =>
    apply h.setCall
    · intro hconn
      rw [hmoves.before] at hconn
      cases hconn
    · intro hsetting
      rcases hmoves.opened hsetting with hopened | ⟨hbefore, hsame⟩
      · exact hopened
      · rw [hsame]
        exact h.opened c hbefore
  | newPacketConn c sent hpc => exact h.newPacketConn hpc sent
  | exchange c ok hpc =>
    apply h.setCall
    · exact fun _ => exchange_keeps (s.calls c) ok
    · intro hsetting
      rw [exchange_settingUp hsetting]
      exact h.opened c hpc
  | close c =>
    obtain ⟨hid, result, hpc⟩ := close_keeps (s.calls c)
    apply h.setCall
    · exact fun _ => ⟨hid, by rw [hpc]; rfl⟩
    · intro hsetting
      rw [hpc] at hsetting
      cases hsetting
  | closePacketConn c result =>
    have hcall : Owns (s.setCall c { s.calls c with
        resource := .closed, pc := .ended result }) := by
      apply h.setCall
      · exact fun _ => ⟨rfl, rfl⟩
      · intro hsetting
        cases hsetting
    exact hcall.shrink rfl rfl fun _ _ hid => hid
  | worker id rest => exact h.shrink rfl rfl fun _ _ hd => (mem_update_none hd).2
  | closeForwarder => exact h.shrink rfl rfl fun _ _ hid => hid

theorem side_owns {forwarder : Bool} (hs : (side forwarder).Reachable s) : Owns s :=
  System.invariant_ofStep (start_owns forwarder)
    (fun _ _ _ h hnext => h.step (step_of_next hnext)) hs

/-! ## The ends of the calls -/

theorem setCall_ends {d : Nat} (hbefore : (s.calls c).pc ≠ .ended .failed)
    (hafter : ((s.setCall d x).calls c).pc = .ended .failed) : d = c ∧ x.pc = .ended .failed := by
  by_cases hdc : c = d
  · subst hdc
    rw [calls_setCall_self] at hafter
    exact ⟨rfl, hafter⟩
  · rw [calls_setCall_ne hdc] at hafter
    exact absurd hafter hbefore

/-- **The three ends with an error** after the `packetConn` was created. -/
theorem ends_failed (hstep : Step s l s')
    (hbefore : (s.calls c).pc ≠ .ended .failed) (hafter : (s'.calls c).pc = .ended .failed) :
    (l = .exchange c false ∧ (s.calls c).func = .handleDialUdpEvent ∧
      (s.calls c).pc.settingUp = true ∧
      s' = s.setCall c { s.calls c with pc := .ended .failed }) ∨
    (l = .exchange c false ∧ (s.calls c).func = .AcceptUDP ∧
      s' = s.setCall c { s.calls c with resource := .closed, pc := .ended .failed }) ∨
    (l = .closePacketConn c ∧ s' = s.closePacketConn c .failed) := by
  cases hstep with
  | early d y hmoves =>
    obtain ⟨_, hpc⟩ := setCall_ends hbefore hafter
    have hconn := hmoves.after
    rw [hpc] at hconn
    cases hconn
  | newPacketConn d sent =>
    obtain ⟨id, n, heq⟩ := newPacketConn_eq s d sent
    rw [heq] at hafter
    obtain ⟨_, hpc⟩ := setCall_ends hbefore hafter
    cases hpc
  | exchange d ok hsetting =>
    obtain ⟨rfl, hpc⟩ := setCall_ends hbefore hafter
    cases hfunc : (s.calls d).func <;> cases ok <;>
      simp only [Call.exchange, hfunc, reduceCtorEq] at hpc ⊢
    · simp [hsetting]
    · split at hpc <;> cases hpc
    · simp
    · split at hpc <;> cases hpc
  | close d =>
    obtain ⟨_, hpc⟩ := setCall_ends hbefore hafter
    obtain ⟨_, result, hclosing⟩ := close_keeps (s.calls d)
    rw [hclosing] at hpc
    cases hpc
  | closePacketConn d result =>
    obtain ⟨rfl, hpc⟩ := setCall_ends hbefore hafter
    cases hpc
    exact .inr (.inr ⟨rfl, rfl⟩)
  | worker => exact absurd hafter hbefore
  | closeForwarder => exact absurd hafter hbefore

/-- `packetConn.Close` gets the channel out of the map unless the forwarder was closed
    before. -/
theorem Owns.removed_iff (h : Owns s) (result : End) :
    (∀ id, s.channelMap id = some c → id ∈ (s.closePacketConn c result).closingCh) ↔
      s.closed = false ∨ s.Removing c := by
  rw [h.removing_iff]
  show (∀ id, _ → id ∈ if s.running then s.closingCh ++ [(s.calls c).channelID]
    else s.closingCh) ↔ _
  cases hclosed : s.closed with
  | true =>
    have hrunning : s.running = false := by simp [State.running, hclosed]
    simp [hrunning]
  | false =>
    refine iff_of_true ?_ (.inl rfl)
    intro id hid
    cases hforwarder : s.forwarder with
    | false =>
      rw [h.noForwarder hforwarder id] at hid
      cases hid
    | true =>
      have hrunning : s.running = true := by simp [State.running, hclosed, hforwarder]
      obtain ⟨rfl, _⟩ := h.own id c hid
      rw [if_pos hrunning]
      exact List.mem_append_right _ (List.mem_singleton_self _)

/-- A call ends with an error: it has released what it acquired exactly if the step meets the
    condition. -/
theorem Owns.released_iff (h : Owns s) (hstep : Step s l s')
    (hbefore : (s.calls c).pc ≠ .ended .failed) (hafter : (s'.calls c).pc = .ended .failed) :
    ((s'.calls c).resource = .closed ∧
      ∀ id, s'.channelMap id = some c → id ∈ s'.closingCh) ↔ Releases s l := by
  rcases ends_failed hstep hbefore hafter with
    ⟨rfl, hfunc, hsetting, rfl⟩ | ⟨rfl, hfunc, rfl⟩ | ⟨rfl, rfl⟩
  · -- the socket of the server is still open
    simp [Releases, hfunc, calls_setCall_self, h.opened c hsetting]
  · -- the stream is closed, the channel is not touched
    simp only [Releases, hfunc, calls_setCall_self, true_and]
    exact h.removing_iff.symm
  · have hclosed : ((s.closePacketConn c .failed).calls c).resource = .closed := by
      show ((s.setCall c _).calls c).resource = .closed
      rw [calls_setCall_self]
    simp only [Releases, hclosed, true_and]
    exact h.removed_iff .failed

/-! ## Runs in which all of them release -/

/-- The call has a `packetConn` that is not closed. -/
def Pc.live : Pc → Bool
  | .created => true
  | .acked => true
  | .inUse => true
  | .closing _ => true
  | _ => false

structure Inv (s : State) : Prop where
  live : ∀ id c, s.channelMap id = some c → (s.calls c).pc.live = true ∨ id ∈ s.closingCh
  failed : ∀ c, (s.calls c).pc = .ended .failed → (s.calls c).resource = .closed

theorem start_inv (forwarder : Bool) : Inv (start forwarder) where
  live := fun _ _ h => by cases h
  failed := fun _ h => by cases h

/-- A call moves on: it stays live, or its channel is being removed. -/
theorem Inv.setCall (h : Inv s)
    (hlive : (s.calls c).pc.live = true →
      x.pc.live = true ∨ ∀ id, s.channelMap id = some c → id ∈ s.closingCh)
    (hfailed : x.pc = .ended .failed → x.resource = .closed) : Inv (s.setCall c x) := by
  refine ⟨?_, ?_⟩
  · intro id d hd
    by_cases hdc : d = c
    · subst hdc
      rw [calls_setCall_self]
      rcases h.live id d hd with hold | hqueued
      · exact (hlive hold).imp_right fun hall => hall id hd
      · exact .inr hqueued
    · rw [calls_setCall_ne hdc]
      exact h.live id d hd
  · intro d
    by_cases hdc : d = c
    · subst hdc
      rw [calls_setCall_self]
      exact hfailed
    · rw [calls_setCall_ne hdc]
      exact h.failed d

theorem Pc.hasPacketConn_of_live {p : Pc} (h : p.live = true) : p.hasPacketConn = true := by
  cases p <;> first | rfl | cases h

/-- A call without a `packetConn` moves on, at most to the point where it has one. -/
theorem Inv.setCall_early (h : Inv s) (hpc : (s.calls c).pc.hasPacketConn = false)
    (hx : x.pc ≠ .ended .failed) : Inv (s.setCall c x) := by
  apply h.setCall
  · intro hlive
    rw [Pc.hasPacketConn_of_live hlive] at hpc
    cases hpc
  · intro hfailed
    exact absurd hfailed hx

theorem Inv.newPacketConn (h : Inv s) (hpc : (s.calls c).pc = .creating) (sent : Nat) :
    Inv (s.newPacketConn c sent) := by
  obtain ⟨id, n, heq⟩ := newPacketConn_eq s c sent
  rw [heq]
  have hcall : Inv (s.setCall c { s.calls c with pc := .created, channelID := id }) :=
    h.setCall_early (by rw [hpc]; rfl) (by simp)
  refine ⟨?_, hcall.failed⟩
  intro id' d hd
  rcases mem_addChannel hd with ⟨_, _, rfl⟩ | hold
  · left
    show ((s.setCall d _).calls d).pc.live = true
    rw [calls_setCall_self]
    rfl
  · exact hcall.live id' d hold

theorem exchange_ok_live (x : Call) : (x.exchange true).pc.live = true := by
  unfold Call.exchange
  split
  · split <;> rfl
  · contradiction
  · rfl
  · contradiction
  · split <;> rfl
  · contradiction

theorem Inv.exchange (h : Inv s) (howns : Owns s) {ok : Bool} (hok : Releases s (.exchange c ok)) :
    Inv (s.setCall c ((s.calls c).exchange ok)) := by
  cases ok with
  | true =>
    have hlive := exchange_ok_live (s.calls c)
    apply h.setCall
    · exact fun _ => .inl hlive
    · intro hfailed
      rw [hfailed] at hlive
      cases hlive
  | false =>
    cases hfunc : (s.calls c).func with
    | handleDialUdpEvent => simp [Releases, hfunc] at hok
    | DialUDP =>
      simp only [Call.exchange, hfunc]
      exact h.setCall (fun _ => .inl rfl) (fun hfailed => by cases hfailed)
    | AcceptUDP =>
      simp only [Releases, hfunc] at hok
      simp only [Call.exchange, hfunc]
      exact h.setCall (fun _ => .inr (howns.removing_iff.mp hok)) (fun _ => rfl)

theorem Inv.closePacketConn (h : Inv s) (howns : Owns s) (result : End)
    (hok : s.closed = false ∨ s.Removing c) : Inv (s.closePacketConn c result) := by
  have hremoved := (howns.removed_iff result).mpr hok
  refine ⟨?_, ?_⟩
  · intro id d hd
    by_cases hdc : d = c
    · -- the channel of this call waits in the queue now
      subst hdc
      exact .inr (hremoved id hd)
    · show ((s.setCall c _).calls d).pc.live = true ∨
        id ∈ if s.running then s.closingCh ++ [(s.calls c).channelID] else s.closingCh
      rw [calls_setCall_ne hdc]
      refine (h.live id d hd).imp_right fun hqueued => ?_
      split
      · exact List.mem_append_left _ hqueued
      · exact hqueued
  · intro d
    show ((s.setCall c _).calls d).pc = _ → ((s.setCall c _).calls d).resource = _
    by_cases hdc : d = c
    · subst hdc
      rw [calls_setCall_self]
      exact fun _ => rfl
    · rw [calls_setCall_ne hdc]
      exact h.failed d

theorem Inv.step (h : Inv s) (howns : Owns s) (hok : Releases s l) (hstep : Step s l s') :
    Inv s' := by
  cases hstep with
  | early c y hmoves =>
    refine h.setCall_early hmoves.before ?_
    intro hfailed
    have hafter := hmoves.after
    rw [hfailed] at hafter
    cases hafter
  | newPacketConn c sent hpc => exact h.newPacketConn hpc sent
  | exchange c ok => exact h.exchange howns hok
  | close c =>
    obtain ⟨_, result, hclosing⟩ := close_keeps (s.calls c)
    apply h.setCall
    · exact fun _ => .inl (by rw [hclosing]; rfl)
    · intro hfailed
      rw [hclosing] at hfailed
      cases hfailed
  | closePacketConn c result => exact h.closePacketConn howns result hok
  | worker id rest hqueue =>
    refine ⟨?_, h.failed⟩
    intro id' d hd
    -- The worker takes the entry of its id away, whatever call made it.
    obtain ⟨hne, hold⟩ := mem_update_none hd
    refine (h.live id' d hold).imp_right fun hqueued => ?_
    rw [hqueue] at hqueued
    exact (List.mem_cons.mp hqueued).resolve_left hne
  | closeForwarder => exact ⟨h.live, h.failed⟩

theorem side_inv {forwarder : Bool} (hs : ((side forwarder).restrict Releases).Reachable s) :
    Inv s := by
  apply System.invariant_with _ (fun s hs => side_owns hs.of_restrict) _ _ hs
  · rintro s rfl
    exact start_inv forwarder
  · intro s l s' howns h ⟨hok, hnext⟩
    exact h.step howns hok (step_of_next hnext)

/-- **Failed setups.**  When a call ends with an error after its `packetConn` was created, its
    socket or stream is closed and its channel is no longer registered, or about to be removed
    by the worker, exactly if the step meets the condition.  In every run whose steps all meet it
    this holds of every call, and the map holds only channels whose `packetConn` is not closed
    or that are about to be removed. -/
theorem failed_setup_releases (forwarder : Bool) :
    (∀ s l s' c, (side forwarder).Reachable s → next s l = some s' →
      (s.calls c).pc ≠ .ended .failed → (s'.calls c).pc = .ended .failed →
      (((s'.calls c).resource = .closed ∧
        ∀ id, s'.channelMap id = some c → id ∈ s'.closingCh) ↔ Releases s l)) ∧
    ∀ s, ((side forwarder).restrict Releases).Reachable s →
      (∀ c, (s.calls c).pc = .ended .failed → (s.calls c).resource = .closed ∧
        ∀ id, s.channelMap id = some c → id ∈ s.closingCh) ∧
      ∀ id c, s.channelMap id = some c → (s.calls c).pc.live = true ∨ id ∈ s.closingCh := by
  constructor
  · intro s l s' c hs hnext hbefore hafter
    exact (side_owns hs).released_iff (step_of_next hnext) hbefore hafter
  · intro s hs
    have hinv := side_inv hs
    refine ⟨?_, hinv.live⟩
    intro c hpc
    refine ⟨hinv.failed c hpc, ?_⟩
    intro id hid
    rcases hinv.live id c hid with hlive | hqueued
    · rw [hpc] at hlive
      cases hlive
    · exact hqueued

/-- `DialUDP` fails to send its ready message and is about to close its `packetConn`. -/
def dialFails : List Label :=
  [Label.call 0 .DialUDP, Label.open 0 true, Label.request 0 true, Label.newPacketConn 0 5,
   Label.exchange 0 false]

theorem failed_setup_releases_dial :
    ∃ s s', ((side true).restrict Releases).Reachable s ∧
      next s (.closePacketConn 0) = some s' ∧ (s'.calls 0).pc = .ended .failed ∧
      s'.channelMap 5 = some 0 ∧ (s'.calls 0).resource = .closed ∧ 5 ∈ s'.closingCh := by
  obtain ⟨s, s', hrun, hnext, hok, hbefore, hafter, hmap⟩ : ∃ s s',
      runLabels (fun s l => if Releases s l then next s l else none) (start true) dialFails
        = some s ∧
      next s (.closePacketConn 0) = some s' ∧ Releases s (.closePacketConn 0) ∧
      (s.calls 0).pc ≠ .ended .failed ∧ (s'.calls 0).pc = .ended .failed ∧
      s'.channelMap 5 = some 0 :=
    exists_step_of_runLabels (by decide +kernel)
  have hs := System.Reachable.of_runLabels_restrict hrun
  have hreleased := ((failed_setup_releases true).1 s _ s' 0 hs.of_restrict hnext hbefore
    hafter).mpr hok
  have hfailed := ((failed_setup_releases true).2 s' (.step _ hs ⟨hok, hnext⟩)).1 0 hafter
  exact ⟨s, s', hs, hnext, hafter, hmap, hreleased.1, hfailed.2 5 hmap⟩

/-- `AcceptUDP` gets an error as the answer, and `handleDialUdpEvent` cannot send its
    response. -/
def messagesFail : List Label :=
  [Label.call 0 .AcceptUDP, Label.open 0 true, Label.newPacketConn 0 5, Label.exchange 0 true,
   Label.exchange 0 false, Label.call 1 .handleDialUdpEvent, Label.open 1 true,
   Label.newPacketConn 1 0, Label.exchange 1 false]

/-- Both calls ended with an error and no removal is queued; both channels are registered, and
    the server's socket is open. -/
theorem failed_setup_leaks :
    ∃ s, (side true).Reachable s ∧ (s.calls 0).pc = .ended .failed ∧ s.channelMap 5 = some 0 ∧
      (s.calls 1).pc = .ended .failed ∧ s.channelMap 1 = some 1 ∧
      (s.calls 1).resource = .opened ∧ s.closingCh = [] := by
  obtain ⟨s, hrun, h⟩ : ∃ s, runLabels next (start true) messagesFail = some s ∧
      (s.calls 0).pc = .ended .failed ∧ s.channelMap 5 = some 0 ∧
      (s.calls 1).pc = .ended .failed ∧ s.channelMap 1 = some 1 ∧
      (s.calls 1).resource = .opened ∧ s.closingCh = [] :=
    exists_of_runLabels (by decide +kernel)
  exact ⟨s, .of_runLabels (fun _ _ _ h => h) (.init rfl) hrun, h⟩

end UdpChannels
