import Tssh.Checker.AliveTime
import Tssh.Framework.Chan
import Tssh.Framework.System

/-! # Alive Messages between Client and Server

    The client sends its time to the server in an alive message, the server sends it back, and
    the client learns how long ago the connection worked in both directions
    (`tsshd/client.go`, `tsshd/bus.go`).  Five parts take turns:

    * `keepAlive` on the client sends a message at each tick of its ticker and then waits for
      `activeAckChan`, a channel with one place,
    * the bus stream carries the message to the server in order,
    * `handleAliveEvent` on the server sends it back,
    * the bus stream carries the answer to the client,
    * `handleBusEvent` on the client, which handles all messages of the bus, puts the time into
      `activeAckChan`.

    If `handleBusEvent` had to wait for a place in `activeAckChan`, exit and rekey messages would
    wait with it.  It never has to: there is one alive message under way at most, wherever it is
    (`alive_messages_alternate`).

    Every access is one step.  Sending may fail on both sides, the server may stop reading the bus
    at any time, and the clock is free.
-/

open LTS Go

namespace Alive

/-! ## State -/

/-- Where `keepAlive` is. -/
inductive KeepAlive where
  | ticker
  | sending (aliveTime : Int)
  | waiting
  | updating (ackTime : Int)
  | judging (ackTime : Int)
  | ended
  deriving DecidableEq, Repr

/-- The acknowledged time that has not reached `activeChecker` yet. -/
def KeepAlive.held : KeepAlive → List Int
  | .updating ackTime => [ackTime]
  | _ => []

/-- A loop that reads the bus: `handleAliveEvent` holds the time it answers or passes on. -/
inductive BusLoop where
  | idle
  | holding (time : Int)
  | ended
  deriving DecidableEq, Repr

def BusLoop.held : BusLoop → List Int
  | .holding time => [time]
  | _ => []

@[simp] theorem BusLoop.held_holding (time : Int) : (BusLoop.holding time).held = [time] := rfl

@[simp] theorem BusLoop.held_idle : BusLoop.idle.held = [] := rfl

/-- The alive messages of one client.  As history: the times that were `sent`, those `updateTime`
    was called with, those that were added to `serverAliveTime`, and each time the packet cache
    was dropped, with the times added before. -/
structure State where
  closed : Bool
  keepAlive : KeepAlive
  activeAckChan : Chan Int
  toServer : List Int
  server : BusLoop
  toClient : List Int
  client : BusLoop
  pendingClearPkt : Bool
  serverAliveTime : AliveTime
  sent : List Int
  updated : List Int
  added : List Int
  drops : List (Int × List Int)
  deriving DecidableEq, Repr

/-- `NewSshUdpClient`. -/
def start : State where
  closed := false
  keepAlive := .ticker
  activeAckChan := .make 1
  toServer := []
  server := .idle
  toClient := []
  client := .idle
  pendingClearPkt := false
  serverAliveTime := .zero
  sent := []
  updated := []
  added := []
  drops := []

/-- The alive message on its way, from the bus of the server to the channel. -/
def State.underWay (s : State) : List Int :=
  s.activeAckChan.queue ++ s.client.held ++ s.toClient ++ s.server.held ++ s.toServer

/-! ## Steps -/

inductive Label where
  | tick (now : Int)
  | send (ok : Bool)
  | serverRecv
  | serverSend (ok : Bool)
  | serverStop
  | clientRecv
  | clientAck
  | clientStop
  | recvAck
  | updateTime
  | judge (now : Int)
  | reconnected
  | close
  deriving DecidableEq, Repr

/-- `sendBusMessage("alive", aliveMessage{aliveTime})`; without success there is a warning, and
    `keepAlive` waits all the same. -/
def send (s : State) (ok : Bool) : Option State :=
  match s.keepAlive with
  | .sending aliveTime =>
    if ok then
      some { s with
        keepAlive := .waiting
        toServer := s.toServer ++ [aliveTime]
        sent := s.sent ++ [aliveTime] }
    else some { s with keepAlive := .waiting }
  | _ => none

/-- A loop takes the next alive message from its bus. -/
def takeNext : BusLoop → List Int → Option (BusLoop × List Int)
  | .idle, time :: rest => some (.holding time, rest)
  | _, _ => none

/-- The server answers with the time it got. -/
def serverSend (s : State) (ok : Bool) : Option State :=
  match s.server with
  | .holding time =>
    some { s with
      server := .idle
      toClient := if ok then s.toClient ++ [time] else s.toClient }
  | _ => none

/-- `c.activeAckChan <- aliveMsg.Time`. -/
def clientAck (s : State) : Option State :=
  match s.client with
  | .holding time =>
    match s.activeAckChan.send time with
    | some (.ok ch) => some { s with activeAckChan := ch, client := .idle }
    | _ => none
  | _ => none

/-- `ackTime := <-c.activeAckChan`. -/
def recvAck (s : State) : Option State :=
  match s.keepAlive, s.activeAckChan.recv with
  | .waiting, some (some ackTime, ch) =>
    some { s with activeAckChan := ch, keepAlive := .updating ackTime }
  | _, _ => none

def updateTime (s : State) : Option State :=
  match s.keepAlive with
  | .updating ackTime =>
    some { s with keepAlive := .judging ackTime, updated := s.updated ++ [ackTime] }
  | _ => none

/-- The end of a round: after a reconnect the cache is dropped once the server is stable. -/
def judge (interval : Int) (s : State) (now : Int) : Option State :=
  match s.keepAlive with
  | .judging ackTime =>
    if s.pendingClearPkt then
      let serverAliveTime := s.serverAliveTime.addMilli ackTime
      let added := s.added ++ [ackTime]
      if now - serverAliveTime.oldest < (kAliveTimeCap + 1) * interval then
        some { s with
          keepAlive := .ticker
          serverAliveTime := serverAliveTime
          added := added
          drops := s.drops ++ [(now, added)]
          pendingClearPkt := false }
      else
        some { s with keepAlive := .ticker, serverAliveTime := serverAliveTime, added := added }
    else some { s with keepAlive := .ticker }
  | _ => none

def next (interval : Int) (s : State) : Label → Option State
  | .tick now =>
    enabledIf (s.keepAlive = .ticker)
      { s with keepAlive := if s.closed then .ended else .sending now }
  | .send ok => send s ok
  | .serverRecv =>
    (takeNext s.server s.toServer).map fun r => { s with server := r.1, toServer := r.2 }
  | .serverSend ok => serverSend s ok
  | .serverStop => enabledIf (s.server = .idle) { s with server := .ended }
  | .clientRecv =>
    (takeNext s.client s.toClient).map fun r => { s with client := r.1, toClient := r.2 }
  | .clientAck => clientAck s
  | .clientStop => enabledIf (s.client = .idle) { s with client := .ended }
  | .recvAck => recvAck s
  | .updateTime => updateTime s
  | .judge now => judge interval s now
  | .reconnected => some { s with pendingClearPkt := true }
  | .close => some { s with closed := true }

/-- The alive messages of a client with the given interval, in milliseconds. -/
def aliveRuns (interval : Int) : System State Label := .ofStep start (next interval)

/-! ## One message at a time -/

/-- The messages that were answered, the one in the hand of `keepAlive`, and the one under way.
    A message is lost where an answer cannot be sent; `keepAlive` then waits for ever. -/
structure Inv (interval : Int) (s : State) : Prop where
  room : s.activeAckChan.cap = 1 ∧ s.activeAckChan.closed = false
  one : s.underWay.length ≤ 1
  alone : s.underWay ≠ [] → s.keepAlive = .waiting
  sent : s.sent = s.updated ++ s.keepAlive.held ++ s.underWay ∨
    s.keepAlive = .waiting ∧ s.underWay = [] ∧ ∃ time, s.sent = s.updated ++ [time]
  records : s.serverAliveTime.Records s.added
  added : s.added.Sublist s.updated
  judging : ∀ time, s.keepAlive = .judging time → ∃ u, s.updated = u ++ [time] ∧ s.added.Sublist u
  dropped : ∀ d ∈ s.drops, d.2 <+: s.added ∧ (6 * interval ≤ d.1 →
    ∃ five, five.length = kAliveTimeCap ∧ five <:+ d.2 ∧
      ∀ time ∈ five.head?, d.1 - time < 6 * interval)

namespace Inv

variable {interval : Int} {s s' : State}

theorem start (interval : Int) : Inv interval start where
  room := ⟨rfl, rfl⟩
  one := Nat.zero_le 1
  alone := fun h => absurd rfl h
  sent := .inl rfl
  records := AliveTime.zero_records
  added := .slnil
  judging := nofun
  dropped := nofun

/-- Nothing is under way unless `keepAlive` waits. -/
theorem none_underWay (h : Inv interval s) (hpc : s.keepAlive ≠ .waiting) : s.underWay = [] := by
  by_contra hne
  exact hpc (h.alone hne)

/-- `keepAlive` goes on to a point at which it holds nothing. -/
theorem moveKeepAlive (h : Inv interval s) (hpc : s.keepAlive ≠ .waiting)
    (hheld : s.keepAlive.held = []) {pc : KeepAlive} (hpc' : pc.held = [])
    (hjudging : ∀ time, pc ≠ .judging time) : Inv interval { s with keepAlive := pc } := by
  have hnone := h.none_underWay hpc
  refine { h with
    alone := fun hne => absurd hnone hne
    sent := .inl ?_
    judging := fun time heq => absurd heq (hjudging time) }
  rcases h.sent with hsent | ⟨hwaiting, -⟩
  · rw [hsent, hheld]
    show _ = s.updated ++ pc.held ++ s.underWay
    rw [hpc']
  · exact absurd hwaiting hpc

/-- A message is passed on: what is under way stays the same. -/
theorem pass (h : Inv interval s) {ch : Chan Int} {toServer toClient : List Int}
    {server client : BusLoop} (hroom : ch.cap = 1 ∧ ch.closed = false)
    (hsame : ch.queue ++ client.held ++ toClient ++ server.held ++ toServer = s.underWay) :
    Inv interval { s with
      activeAckChan := ch
      toServer := toServer
      server := server
      toClient := toClient
      client := client } where
  room := hroom
  one := by
    show (ch.queue ++ client.held ++ toClient ++ server.held ++ toServer).length ≤ 1
    rw [hsame]
    exact h.one
  alone := fun hne => h.alone (by rw [← hsame]; exact hne)
  sent := by
    have hsent := h.sent
    rw [← hsame] at hsent
    exact hsent
  records := h.records
  added := h.added
  judging := h.judging
  dropped := h.dropped

theorem send {ok : Bool} (h : Inv interval s) (hstep : send s ok = some s') : Inv interval s' := by
  unfold Alive.send at hstep
  split at hstep
  · next aliveTime hpc =>
    have hmoved : Inv interval { s with keepAlive := .waiting } :=
      h.moveKeepAlive (by rw [hpc]; nofun) (by rw [hpc]; rfl) rfl nofun
    cases ok with
    | false =>
      cases hstep
      exact hmoved
    | true =>
      cases hstep
      have hnone := h.none_underWay (by rw [hpc]; nofun)
      have hunder : s.activeAckChan.queue ++ s.client.held ++ s.toClient ++ s.server.held ++
          (s.toServer ++ [aliveTime]) = [aliveTime] := by
        rw [← List.append_assoc]
        exact congrArg (· ++ [aliveTime]) hnone
      refine { hmoved with one := ?_, alone := fun _ => rfl, sent := .inl ?_ }
      · show (_ ++ _ ++ _ ++ _ ++ (s.toServer ++ [aliveTime])).length ≤ 1
        rw [hunder]
        exact Nat.le_refl 1
      · rcases h.sent with hsent | ⟨hwaiting, -⟩
        · show s.sent ++ [aliveTime] = s.updated ++ [] ++ (_ ++ _ ++ _ ++ _ ++ (s.toServer ++ [aliveTime]))
          rw [hunder, hsent, hnone, hpc]
          simp [KeepAlive.held]
        · rw [hpc] at hwaiting
          cases hwaiting
  · cases hstep

theorem takeNext_held {loop loop' : BusLoop} {bus rest : List Int}
    (h : takeNext loop bus = some (loop', rest)) : loop'.held ++ rest = loop.held ++ bus := by
  unfold takeNext at h
  split at h
  · cases h
    rfl
  · cases h

theorem serverSend {ok : Bool} (h : Inv interval s) (hstep : serverSend s ok = some s') :
    Inv interval s' := by
  unfold Alive.serverSend at hstep
  split at hstep
  · next time hserver =>
    cases hstep
    cases ok with
    | true =>
      refine h.pass h.room ?_
      rw [State.underWay, hserver]
      simp
    | false =>
      -- the one message under way is the one that is lost
      have hone := h.one
      have hunder : s.underWay = [time] ∧
          s.activeAckChan.queue ++ s.client.held ++ s.toClient ++ [] ++ s.toServer = [] := by
        simp only [State.underWay, hserver, BusLoop.held_holding, List.length_append,
          List.length_singleton] at hone ⊢
        have hq : s.activeAckChan.queue = [] := List.length_eq_zero_iff.mp (by omega)
        have hc : s.client.held = [] := List.length_eq_zero_iff.mp (by omega)
        have ht : s.toClient = [] := List.length_eq_zero_iff.mp (by omega)
        have hs : s.toServer = [] := List.length_eq_zero_iff.mp (by omega)
        simp [hq, hc, ht, hs]
      have hwaiting := h.alone (by rw [hunder.1]; nofun)
      refine { h with
        one := ?_
        alone := fun hne => absurd hunder.2 hne
        sent := .inr ⟨hwaiting, hunder.2, time, ?_⟩ }
      · show (s.activeAckChan.queue ++ s.client.held ++ s.toClient ++ [] ++ s.toServer).length ≤ 1
        rw [hunder.2]
        exact Nat.zero_le 1
      · rcases h.sent with hsent | ⟨-, hnone, -⟩
        · rw [hunder.1, hwaiting] at hsent
          simpa [KeepAlive.held] using hsent
        · rw [hunder.1] at hnone
          cases hnone
  · cases hstep

theorem clientAck (h : Inv interval s) (hstep : clientAck s = some s') : Inv interval s' := by
  unfold Alive.clientAck at hstep
  split at hstep
  · next time hclient =>
    split at hstep
    · next ch hsend =>
      cases hstep
      cases Chan.send_of_open h.room.2 hsend
      refine h.pass h.room ?_
      rw [State.underWay, hclient]
      simp
    · cases hstep
  · cases hstep

theorem recvAck (h : Inv interval s) (hstep : recvAck s = some s') : Inv interval s' := by
  unfold Alive.recvAck at hstep
  split at hstep
  · next ackTime ch hpc hrecv =>
    cases hstep
    obtain ⟨x, rest, hqueue, hr⟩ | ⟨-, -, hr⟩ := Chan.recv_cases hrecv
    · cases hr
      have hone := h.one
      have hunder : s.underWay = [ackTime] ∧
          rest ++ s.client.held ++ s.toClient ++ s.server.held ++ s.toServer = [] := by
        simp only [State.underWay, hqueue, List.length_append, List.length_cons] at hone ⊢
        have hq : rest = [] := List.length_eq_zero_iff.mp (by omega)
        have hc : s.client.held = [] := List.length_eq_zero_iff.mp (by omega)
        have ht : s.toClient = [] := List.length_eq_zero_iff.mp (by omega)
        have hv : s.server.held = [] := List.length_eq_zero_iff.mp (by omega)
        have hs : s.toServer = [] := List.length_eq_zero_iff.mp (by omega)
        simp [hq, hc, ht, hv, hs]
      refine { h with
        one := ?_
        alone := fun hne => absurd hunder.2 hne
        sent := .inl ?_
        judging := nofun }
      · show (rest ++ s.client.held ++ s.toClient ++ s.server.held ++ s.toServer).length ≤ 1
        rw [hunder.2]
        exact Nat.zero_le 1
      · show s.sent = s.updated ++ [ackTime] ++
          (rest ++ s.client.held ++ s.toClient ++ s.server.held ++ s.toServer)
        rcases h.sent with hsent | ⟨-, hnone, -⟩
        · rw [hunder.2, hsent, hunder.1, hpc]
          simp [KeepAlive.held]
        · rw [hunder.1] at hnone
          cases hnone
    · cases hr
  · cases hstep

theorem updateTime (h : Inv interval s) (hstep : updateTime s = some s') : Inv interval s' := by
  unfold Alive.updateTime at hstep
  split at hstep
  · next ackTime hpc =>
    cases hstep
    have hnone := h.none_underWay (by rw [hpc]; nofun)
    refine { h with
      alone := fun hne => absurd hnone hne
      sent := .inl ?_
      added := h.added.trans (List.sublist_append_left _ _)
      judging := ?_ }
    · rcases h.sent with hsent | ⟨hwaiting, -⟩
      · rw [hsent, hpc]
        show _ = s.updated ++ [ackTime] ++ [] ++ s.underWay
        simp [KeepAlive.held]
      · rw [hpc] at hwaiting
        cases hwaiting
    · intro time htime
      cases htime
      exact ⟨s.updated, rfl, h.added⟩
  · cases hstep

/-- The times added once a drop is decided: five at least, the first of the last five sent less
    than six intervals ago. -/
theorem five_of_stable {t : AliveTime} {added : List Int} (hrecords : t.Records added) {now : Int}
    (hstable : now - t.oldest < (kAliveTimeCap + 1) * interval) (hclock : 6 * interval ≤ now) :
    ∃ five, five.length = kAliveTimeCap ∧ five <:+ added ∧
      ∀ time ∈ five.head?, now - time < 6 * interval := by
  have hstable : now - t.oldest < 6 * interval := hstable
  rw [AliveTime.oldest_eq hrecords] at hstable
  split at hstable
  · next hlen =>
    refine ⟨added.drop (added.length - kAliveTimeCap), ?_, List.drop_suffix _ _, ?_⟩
    · rw [List.length_drop]
      omega
    · intro time htime
      rw [List.head?_drop, Option.mem_def] at htime
      rw [List.getD_eq_getElem?_getD, htime, Option.getD_some] at hstable
      exact hstable
  · omega

theorem judge {now : Int} (h : Inv interval s) (hstep : judge interval s now = some s') :
    Inv interval s' := by
  unfold Alive.judge at hstep
  split at hstep
  · next ackTime hpc =>
    obtain ⟨u, hupdated, hsub⟩ := h.judging ackTime hpc
    have hmoved : Inv interval { s with keepAlive := .ticker } :=
      h.moveKeepAlive (by rw [hpc]; nofun) (by rw [hpc]; rfl) rfl nofun
    have hrecords := AliveTime.addMilli_records h.records ackTime
    have hadded : (s.added ++ [ackTime]).Sublist s.updated := by
      rw [hupdated]
      exact hsub.append (.refl _)
    have hold : ∀ d ∈ s.drops, d.2 <+: s.added ++ [ackTime] ∧ (6 * interval ≤ d.1 →
        ∃ five, five.length = kAliveTimeCap ∧ five <:+ d.2 ∧
          ∀ time ∈ five.head?, d.1 - time < 6 * interval) := fun d hd =>
      ⟨(h.dropped d hd).1.trans (List.prefix_append _ _), (h.dropped d hd).2⟩
    simp only at hstep
    split at hstep
    · split at hstep
      · next hstable =>
        cases hstep
        refine { hmoved with
          records := hrecords
          added := hadded
          judging := nofun
          dropped := ?_ }
        intro d hd
        rcases List.mem_append.mp hd with hd | hd
        · exact hold d hd
        · rw [List.mem_singleton.mp hd]
          exact ⟨List.prefix_refl _, five_of_stable hrecords hstable⟩
      · cases hstep
        exact { hmoved with
          records := hrecords
          added := hadded
          judging := nofun
          dropped := hold }
    · cases hstep
      exact hmoved
  · cases hstep

theorem next {l : Label} (h : Inv interval s) (hstep : next interval s l = some s') :
    Inv interval s' := by
  cases l with
  | tick now =>
    obtain ⟨hpc, rfl⟩ := enabledIf_eq_some hstep
    refine h.moveKeepAlive (by rw [hpc]; nofun) (by rw [hpc]; rfl) ?_ ?_
    · split <;> rfl
    · intro time
      split <;> nofun
  | send ok => exact h.send hstep
  | serverRecv =>
    obtain ⟨r, hr, rfl⟩ := Option.map_eq_some_iff.mp hstep
    refine h.pass h.room ?_
    rw [List.append_assoc, takeNext_held hr, ← List.append_assoc]
    rfl
  | serverSend ok => exact h.serverSend hstep
  | serverStop | clientStop =>
    obtain ⟨hidle, rfl⟩ := enabledIf_eq_some hstep
    refine h.pass h.room ?_
    rw [State.underWay, hidle]
    rfl
  | clientRecv =>
    obtain ⟨r, hr, rfl⟩ := Option.map_eq_some_iff.mp hstep
    refine h.pass h.room ?_
    rw [List.append_assoc s.activeAckChan.queue, takeNext_held hr, ← List.append_assoc]
    rfl
  | clientAck => exact h.clientAck hstep
  | recvAck => exact h.recvAck hstep
  | updateTime => exact h.updateTime hstep
  | judge now => exact h.judge hstep
  | reconnected =>
    cases hstep
    exact { h with }
  | close =>
    cases hstep
    exact { h with }

theorem reachable (hs : (aliveRuns interval).Reachable s) : Inv interval s :=
  System.invariant_ofStep (Inv.start interval) (fun _ _ _ h => h.next) hs

end Inv

/-- **One alive message at a time**, wherever it is.  The answered times are those sent, in order,
    but for the last one; whenever `handleBusEvent` has an answer it can put it into the channel
    at once; and the client drops its packet cache only after five answers, the first of them to a
    message sent less than six intervals ago. -/
theorem alive_messages_alternate {interval : Int} {s : State}
    (hs : (aliveRuns interval).Reachable s) :
    s.underWay.length ≤ 1 ∧ s.updated <+: s.sent ∧ s.sent.length ≤ s.updated.length + 1 ∧
      (∀ time, s.client = .holding time → ∃ s', next interval s .clientAck = some s') ∧
      ∀ d ∈ s.drops, 6 * interval ≤ d.1 →
        ∃ five : List Int, five.length = kAliveTimeCap ∧ five.Sublist s.updated ∧
          ∀ time ∈ five.head?, d.1 - time < 6 * interval := by
  have h := Inv.reachable hs
  refine ⟨h.one, ?_, ?_, ?_, ?_⟩
  · rcases h.sent with hsent | ⟨-, -, time, hsent⟩
    · rw [hsent, List.append_assoc]
      exact List.prefix_append _ _
    · rw [hsent]
      exact List.prefix_append _ _
  · rcases h.sent with hsent | ⟨-, -, time, hsent⟩
    · -- `keepAlive` holds a time only while nothing is under way
      have hcount : s.keepAlive.held.length + s.underWay.length ≤ 1 := by
        by_cases hwaiting : s.keepAlive = .waiting
        · rw [hwaiting]
          show 0 + _ ≤ 1
          have := h.one
          omega
        · rw [h.none_underWay hwaiting]
          cases s.keepAlive <;> simp [KeepAlive.held]
      rw [hsent, List.length_append, List.length_append]
      omega
    · rw [hsent, List.length_append, List.length_singleton]
  · intro time hclient
    have hone := h.one
    have hqueue : s.activeAckChan.queue = [] := by
      simp only [State.underWay, hclient, BusLoop.held_holding, List.length_append,
        List.length_singleton] at hone
      exact List.length_eq_zero_iff.mp (by omega)
    simp [next, clientAck, hclient, Chan.send, h.room.1, h.room.2, hqueue]
  · intro d hd hclock
    obtain ⟨hbefore, hfive⟩ := h.dropped d hd
    obtain ⟨five, hlen, hsuffix, hhead⟩ := hfive hclock
    exact ⟨five, hlen, (hsuffix.sublist.trans hbefore.sublist).trans h.added, hhead⟩

/-- One round, answered at once. -/
def answered (time : Int) : List Label :=
  [.tick time, .send true, .serverRecv, .serverSend true, .clientRecv, .clientAck, .recvAck,
   .updateTime, .judge time]

/-- Five rounds after a reconnect, and a sixth whose message waits at the client. -/
def stabilizing : List Label :=
  .reconnected :: ([1000, 1010, 1020, 1030, 1040].flatMap answered ++
    [.tick 1050, .send true, .serverRecv, .serverSend true, .clientRecv])

theorem stabilizing_drops :
    ∃ s, (aliveRuns 10).Reachable s ∧ s.client = .holding 1050 ∧ s.drops.map Prod.fst = [1040] ∧
      (∃ s', next 10 s .clientAck = some s') ∧
      ∀ d ∈ s.drops, 6 * 10 ≤ d.1 →
        ∃ five : List Int, five.length = kAliveTimeCap ∧ five.Sublist s.updated ∧
          ∀ time ∈ five.head?, d.1 - time < 6 * 10 := by
  obtain ⟨s, hrun, hclient, hdrops⟩ : ∃ s,
      runLabels (next 10) start stabilizing = some s ∧ s.client = .holding 1050 ∧
        s.drops.map Prod.fst = [1040] :=
    exists_of_runLabels (by decide +kernel)
  have hs : (aliveRuns 10).Reachable s := .of_runLabels (fun _ _ _ h => h) (.init rfl) hrun
  obtain ⟨-, -, -, hroom, hfive⟩ := alive_messages_alternate hs
  exact ⟨s, hs, hclient, hdrops, hroom 1050 hclient, hfive⟩

end Alive
