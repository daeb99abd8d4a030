import Tssh.Framework.Deposit
import Tssh.Framework.System

/-! # Accepted Connections of Forwarded Listeners

    A connection that the server accepts for the client, on a forwarded port
    (`handleListenEvent` in `tsshd/forward.go`) or on the socket of a forwarded agent or
    display (`handleChannelAccept` in `tsshd/session.go`), is parked in `fwdAcceptMap` under a
    fresh id, and the client is told the id.  Then up to three goroutines race for it:

    * the handler of the client's accept request (`handleAcceptEvent`), which forwards it,
    * the reaper that `reapAcceptConnAfterTimeout` starts, which closes it,
    * the listener itself if the message to the client cannot be sent.

    A session may load any server, or none, so that there are several maps.  All goroutines
    and all client requests, with any ids, interleave in any order.

    * `accepted_conn_exclusive`: no id is handed out twice, and whoever is first gets the
      connection alone.
-/

open LTS

namespace AcceptedConns

/-! ## Goroutines -/

/-- A goroutine: the loop of a listener, the goroutine of a connection that
    `handleChannelAccept` has accepted, a reaper, or the handler of an accept request. -/
inductive Gid where
  | listener (n : Nat)
  | channel (n : Nat)
  | reaper (n : Nat)
  | claim (n : Nat)
  deriving DecidableEq, Repr

/-- Where a goroutine is.  `sv` is a server, `c` a connection. -/
inductive Routine where
  | idle
  /-- `listener.Accept()`. -/
  | accept (sv : Nat)
  /-- `c.server.Load()`. -/
  | load (c : Nat)
  /-- `addAcceptConn(conn)`. -/
  | park (sv c : Nat)
  /-- `reapAcceptConnAfterTimeout(id)`. -/
  | arm (sv id : Nat)
  /-- Tell the id to the client. -/
  | send (sv id : Nat)
  /-- `takeAcceptConn(id)`. -/
  | take (sv id : Nat)
  /-- `sendSuccess(stream)`, with the connection. -/
  | ack (c : Nat)
  /-- `forwardConnection(stream, conn)`. -/
  | forward (c : Nat)
  /-- `conn.Close()` for a connection from the map. -/
  | closing (c : Nat)
  /-- `conn.Close()` for a connection that no server wants. -/
  | drop (c : Nat)
  | done
  deriving DecidableEq, Repr

/-- A server and one of its ids. -/
abbrev Key := Nat × Nat

/-- The servers' counters and maps.  History: the ids that `addAcceptConn` has returned, who
    accepted a connection, who forwarded it and who closed it. -/
structure State where
  /-- An `atomic.Uint64`; the runs are those with fewer than 2^64 accepted connections. -/
  nextFwdAcceptID : Nat → Nat
  fwdAccept : Deposit Key Nat Gid
  routines : Gid → Routine
  conns : Nat
  issued : Nat → List Nat
  origin : Nat → Option Gid
  forwards : Nat → List Gid
  closes : Nat → List Gid

def start : State where
  nextFwdAcceptID := fun _ => 0
  fwdAccept := .empty
  routines := fun _ => .idle
  conns := 0
  issued := fun _ => []
  origin := fun _ => none
  forwards := fun _ => []
  closes := fun _ => []

def State.setRoutine (s : State) (g : Gid) (q : Routine) : State :=
  { s with routines := Function.update s.routines g q }

inductive Label where
  /-- Listener `n` is started for a client of server `sv`. -/
  | listen (n sv : Nat)
  /-- Listener `n` accepts a connection. -/
  | accept (n : Nat)
  /-- `handleChannelAccept` accepts a connection and starts goroutine `n` for it. -/
  | channel (n : Nat)
  /-- The session of goroutine `n` has this server. -/
  | load (n : Nat) (server : Option Nat)
  /-- Goroutine `g` starts timer `n`. -/
  | arm (g : Gid) (n : Nat)
  /-- A client of server `sv` asks for `id`; `n` handles the request. -/
  | claim (n sv id : Nat)
  /-- The next step of a goroutine; `ok` is whether a send succeeds. -/
  | step (g : Gid) (ok : Bool)
  deriving DecidableEq, Repr

/-- A new connection, accepted by `g`, which goes on with it at `q`. -/
def State.newConn (s : State) (g : Gid) (q : Nat → Routine) : State :=
  { s.setRoutine g (q s.conns) with
    conns := s.conns + 1
    origin := Function.update s.origin s.conns (some g) }

/-- `addAcceptConn`. -/
def State.addAcceptConn (s : State) (sv c : Nat) : Nat × State :=
  let id := s.nextFwdAcceptID sv
  (id, { s with
    nextFwdAcceptID := Function.update s.nextFwdAcceptID sv (id + 1)
    fwdAccept := s.fwdAccept.put (sv, id) c
    issued := Function.update s.issued sv (s.issued sv ++ [id]) })

/-- `takeAcceptConn`, called by `g`. -/
def State.takeAcceptConn (s : State) (sv id : Nat) (g : Gid) : Option Nat × State :=
  ((s.fwdAccept.take (sv, id) g).1, { s with fwdAccept := (s.fwdAccept.take (sv, id) g).2 })

/-- What a goroutine does with a connection from the map: the handler of a request
    acknowledges it and the others close it. -/
def Gid.withConn (c : Nat) : Gid → Routine
  | .claim _ => .ack c
  | _ => .closing c

/-- After the message with the id: the listener accepts the next connection, or on an error
    takes the connection back; the goroutine of a channel ends. -/
def Gid.afterSend (sv id : Nat) (ok : Bool) : Gid → Routine
  | .listener _ => if ok then .accept sv else .take sv id
  | _ => .done

/-- The next step of goroutine `g`. -/
def State.step (s : State) (g : Gid) (ok : Bool) : Option State :=
  match s.routines g with
  -- the listener was closed
  | .accept _ => some (s.setRoutine g .done)
  | .park sv c =>
    let (id, s) := s.addAcceptConn sv c
    some (s.setRoutine g (.arm sv id))
  | .send sv id => some (s.setRoutine g (g.afterSend sv id ok))
  | .take sv id =>
    match s.takeAcceptConn sv id g with
    | (none, s) => some (s.setRoutine g .done)
    | (some c, s) => some (s.setRoutine g (g.withConn c))
  | .ack c =>
    if ok then
      some { s.setRoutine g (.forward c) with
        forwards := Function.update s.forwards c (s.forwards c ++ [g]) }
    else some (s.setRoutine g (.closing c))
  | .forward c => some (s.setRoutine g (.closing c))
  | .closing c | .drop c =>
    some { s.setRoutine g .done with
      closes := Function.update s.closes c (s.closes c ++ [g]) }
  | _ => none

def next (s : State) : Label → Option State
  | .listen n sv =>
    enabledIf (s.routines (.listener n) = .idle) (s.setRoutine (.listener n) (.accept sv))
  | .accept n =>
    match s.routines (.listener n) with
    | .accept sv => some (s.newConn (.listener n) (.park sv))
    | _ => none
  | .channel n =>
    enabledIf (s.routines (.channel n) = .idle) (s.newConn (.channel n) .load)
  | .load n server =>
    match s.routines (.channel n), server with
    | .load c, some sv => some (s.setRoutine (.channel n) (.park sv c))
    | .load c, none => some (s.setRoutine (.channel n) (.drop c))
    | _, _ => none
  | .arm g n =>
    match s.routines g with
    | .arm sv id =>
      enabledIf (s.routines (.reaper n) = .idle)
        ((s.setRoutine (.reaper n) (.take sv id)).setRoutine g (.send sv id))
    | _ => none
  | .claim n sv id =>
    enabledIf (s.routines (.claim n) = .idle) (s.setRoutine (.claim n) (.take sv id))
  | .step g ok => s.step g ok

/-- Any number of listeners, sessions and clients. -/
def server : System State Label := .ofStep start next

/-! ## Invariant

    What a goroutine knows about its connection: before it is parked, nobody else has seen
    it; after it was taken from the map, nobody else has got it. -/

variable {s s' : State} {g h : Gid} {q : Routine} {i j : Key} {c : Nat}

/-- The connection was never parked, forwarded or closed. -/
def State.Untouched (s : State) (c : Nat) : Prop :=
  (∀ i, s.fwdAccept.given i ≠ some c) ∧ s.forwards c = [] ∧ s.closes c = []

/-- The goroutines that take connections from the map. -/
def Gid.Takes : Gid → Prop
  | .channel _ => False
  | _ => True

def State.Knows (s : State) (g : Gid) : Routine → Prop
  | .load c | .park _ c | .drop c => c < s.conns ∧ s.origin c = some g ∧ s.Untouched c
  | .take _ _ => g.Takes
  | .ack c => (∃ i, s.fwdAccept.Held i c g) ∧ s.forwards c = []
  | .forward c | .closing c => ∃ i, s.fwdAccept.Held i c g
  | _ => True

/-- The invariant of the shared state. -/
structure State.Shared (s : State) : Prop where
  ok : s.fwdAccept.Ok
  ids : ∀ sv id, s.nextFwdAcceptID sv ≤ id → s.fwdAccept.given (sv, id) = none
  issued : ∀ sv, s.issued sv = List.range (s.nextFwdAcceptID sv)
  once : ∀ i j c, s.fwdAccept.given i = some c → s.fwdAccept.given j = some c → i = j
  takers : ∀ i, ∀ g ∈ s.fwdAccept.takers i, g.Takes
  new : ∀ c, s.conns ≤ c → s.Untouched c
  forwards : ∀ c, s.forwards c = [] ∨ ∃ i g, s.fwdAccept.Held i c g ∧ s.forwards c = [g]
  closes : ∀ c, ∀ g ∈ s.closes c,
    (∃ i, s.fwdAccept.Held i c g) ∨ ∀ i, s.fwdAccept.given i ≠ some c

structure Inv (s : State) : Prop where
  shared : s.Shared
  knows : ∀ g, s.Knows g (s.routines g)

theorem start_inv : Inv start where
  shared :=
    { ok := Deposit.ok_empty
      ids := fun _ _ _ => rfl
      issued := fun _ => rfl
      once := fun _ _ _ hi => absurd hi (Option.some_ne_none _).symm
      takers := fun _ _ hg => absurd hg List.not_mem_nil
      new := fun _ _ => ⟨fun _ => (Option.some_ne_none _).symm, rfl, rfl⟩
      forwards := fun _ => .inl rfl
      closes := fun _ _ hg => absurd hg List.not_mem_nil }
  knows := fun _ => trivial

/-- Two goroutines do not hold one connection. -/
theorem State.Shared.held_unique (hs : s.Shared) (hi : s.fwdAccept.Held i c g)
    (hj : s.fwdAccept.Held j c h) : g = h := by
  obtain rfl := hs.once i j c hi.1 hj.1
  exact (hi.unique hj).2

/-- What another goroutine knows stays true if its connection is left alone. -/
theorem State.Knows.stable (hk : s.Knows h q) (hconns : s.conns ≤ s'.conns)
    (horigin : ∀ c < s.conns, s'.origin c = s.origin c)
    (hheld : ∀ i c, s.fwdAccept.Held i c h → s'.fwdAccept.Held i c h)
    (huntouched : ∀ c, c < s.conns → s.origin c = some h → s.Untouched c → s'.Untouched c)
    (hforwards : ∀ i c, s.fwdAccept.Held i c h → s.forwards c = [] → s'.forwards c = []) :
    s'.Knows h q := by
  cases q with
  | load c | park sv c | drop c =>
    obtain ⟨hlt, ho, hu⟩ := hk
    exact ⟨Nat.lt_of_lt_of_le hlt hconns, (horigin c hlt).trans ho, huntouched c hlt ho hu⟩
  | take sv id => exact hk
  | ack c =>
    obtain ⟨⟨i, hi⟩, hnone⟩ := hk
    exact ⟨⟨i, hheld i c hi⟩, hforwards i c hi hnone⟩
  | forward c | closing c =>
    obtain ⟨i, hi⟩ := hk
    exact ⟨i, hheld i c hi⟩
  | idle | accept | arm | send | done => trivial

/-- Goroutine `g` goes on at `q`; the others know what they knew. -/
theorem Inv.of_others (hs : s.Shared) (hg : s.Knows g q)
    (hothers : ∀ h, h ≠ g → s.Knows h (s.routines h)) : Inv (s.setRoutine g q) := by
  refine ⟨⟨hs.ok, hs.ids, hs.issued, hs.once, hs.takers, hs.new, hs.forwards, hs.closes⟩, ?_⟩
  intro h
  by_cases hh : h = g
  · subst hh
    have hroutine : (s.setRoutine h q).routines h = q := Function.update_self ..
    rw [hroutine]
    exact hg
  · have hroutine : (s.setRoutine g q).routines h = s.routines h := Function.update_of_ne hh ..
    rw [hroutine]
    exact hothers h hh

/-- A step that changes the goroutine only. -/
theorem Inv.move (hs : Inv s) (hg : s.Knows g q) : Inv (s.setRoutine g q) :=
  .of_others hs.shared hg fun h _ => hs.knows h

/-! ### The steps that change the shared state -/

theorem Inv.newConn (hs : Inv s) {q : Nat → Routine}
    (hq : ∀ (t : State) c, c < t.conns → t.origin c = some g → t.Untouched c → t.Knows g (q c)) :
    Inv (s.newConn g q) := by
  have hnew : ∀ c < s.conns, Function.update s.origin s.conns (some g) c = s.origin c := by
    intro c hc
    exact Function.update_of_ne (by omega) ..
  let t : State :=
    { s with conns := s.conns + 1, origin := Function.update s.origin s.conns (some g) }
  have ht : t.Shared :=
    { hs.shared with new := fun c hc => hs.shared.new c (Nat.le_of_succ_le hc) }
  have hknows : t.Knows g (q s.conns) :=
    hq t s.conns (Nat.lt_succ_self _) (Function.update_self ..) (hs.shared.new s.conns (Nat.le_refl _))
  exact Inv.of_others ht hknows fun h _ =>
    (hs.knows h).stable (Nat.le_succ _) hnew (fun _ _ hi => hi) (fun _ _ _ hu => hu)
      (fun _ _ _ hf => hf)

/-- `addAcceptConn` for a connection that nobody has seen. -/
theorem Inv.addAcceptConn (hs : Inv s) {sv : Nat} (hg : s.Knows g (.park sv c)) :
    Inv ((s.addAcceptConn sv c).2.setRoutine g (.arm sv (s.addAcceptConn sv c).1)) := by
  obtain ⟨hlt, horigin, hgiven, hforwards, hcloses⟩ := hg
  have hfree := hs.shared.ids sv _ (Nat.le_refl _)
  have hput : ∀ {i c'}, (s.addAcceptConn sv c).2.fwdAccept.given i = some c' →
      (i = (sv, s.nextFwdAcceptID sv) ∧ c' = c) ∨
      (i ≠ (sv, s.nextFwdAcceptID sv) ∧ s.fwdAccept.given i = some c') :=
    fun hi => Deposit.given_put_cases hi
  have hheld : ∀ {i c' g'}, s.fwdAccept.Held i c' g' →
      (s.addAcceptConn sv c).2.fwdAccept.Held i c' g' := fun hi => hi.put hfree
  have huntouched : ∀ c', c' ≠ c → s.Untouched c' → (s.addAcceptConn sv c).2.Untouched c' := by
    intro c' hne ⟨hnone, hf, hc⟩
    refine ⟨fun i hi => ?_, hf, hc⟩
    rcases hput hi with ⟨_, heq⟩ | ⟨_, hold⟩
    · exact hne heq
    · exact hnone i hold
  have hshared : (s.addAcceptConn sv c).2.Shared :=
    { ok := hs.shared.ok.put hfree
      ids := by
        intro sv' id hid
        have hid' : Function.update s.nextFwdAcceptID sv (s.nextFwdAcceptID sv + 1) sv' ≤ id := hid
        have hne : (sv', id) ≠ (sv, s.nextFwdAcceptID sv) := by
          intro heq
          obtain ⟨rfl, rfl⟩ := Prod.mk.inj heq
          rw [Function.update_self] at hid'
          omega
        refine (Deposit.given_put_ne hne).trans (hs.shared.ids sv' id ?_)
        by_cases hsv : sv' = sv
        · rw [hsv, Function.update_self] at hid'
          rw [hsv]
          omega
        · rwa [Function.update_of_ne hsv] at hid'
      issued := by
        intro sv'
        show Function.update s.issued sv _ sv' =
          List.range (Function.update s.nextFwdAcceptID sv (s.nextFwdAcceptID sv + 1) sv')
        by_cases hsv : sv' = sv
        · rw [hsv, Function.update_self, Function.update_self, List.range_succ, hs.shared.issued]
        · rw [Function.update_of_ne hsv, Function.update_of_ne hsv]
          exact hs.shared.issued sv'
      once := by
        intro i j c' hi hj
        rcases hput hi with ⟨hi, hci⟩ | ⟨_, hi⟩
        · rcases hput hj with ⟨hj, _⟩ | ⟨_, hj⟩
          · rw [hi, hj]
          · rw [hci] at hj
            exact absurd hj (hgiven j)
        · rcases hput hj with ⟨_, hcj⟩ | ⟨_, hj⟩
          · rw [hcj] at hi
            exact absurd hi (hgiven i)
          · exact hs.shared.once i j c' hi hj
      takers := hs.shared.takers
      new := by
        intro c' hc'
        have hle : s.conns ≤ c' := hc'
        exact huntouched c' (by omega) (hs.shared.new c' hle)
      forwards := by
        intro c'
        rcases hs.shared.forwards c' with hf | ⟨i, g', hi, hf⟩
        · exact .inl hf
        · exact .inr ⟨i, g', hheld hi, hf⟩
      closes := by
        intro c' g' hg'
        rcases hs.shared.closes c' g' hg' with ⟨i, hi⟩ | hnever
        · exact .inl ⟨i, hheld hi⟩
        · right
          intro i hi
          rcases hput hi with ⟨_, heq⟩ | ⟨_, hold⟩
          · have hmem : g' ∈ s.closes c' := hg'
            rw [heq, hcloses] at hmem
            cases hmem
          · exact hnever i hold }
  refine .of_others hshared trivial fun h hh => ?_
  refine (hs.knows h).stable (Nat.le_refl _) (fun _ _ => rfl) (fun _ _ hi => hheld hi) ?_
    (fun _ _ _ hf => hf)
  intro c' _ ho hu
  -- the other goroutine has accepted another connection
  refine huntouched c' ?_ hu
  rintro rfl
  rw [horigin] at ho
  exact hh (Option.some.inj ho).symm

/-- `takeAcceptConn` that gets a connection. -/
theorem Inv.takeAcceptConn (hs : Inv s) {sv id : Nat} (hg : s.Knows g (.take sv id))
    (htake : (s.takeAcceptConn sv id g).1 = some c) :
    Inv ((s.takeAcceptConn sv id g).2.setRoutine g (g.withConn c)) := by
  have hok := hs.shared.ok
  obtain ⟨hheld, htakers⟩ := hok.held_of_take htake
  have hgiven : (s.takeAcceptConn sv id g).2.fwdAccept.given = s.fwdAccept.given :=
    Deposit.given_take
  have hkeep : ∀ {i c' g'}, s.fwdAccept.Held i c' g' →
      (s.takeAcceptConn sv id g).2.fwdAccept.Held i c' g' := fun hi => hok.held_take hi _ _
  have huntouched : ∀ c', s.Untouched c' → (s.takeAcceptConn sv id g).2.Untouched c' := by
    intro c' ⟨hnone, hf, hc⟩
    refine ⟨?_, hf, hc⟩
    rw [hgiven]
    exact hnone
  -- the connection was in the map, so nobody has forwarded it
  have hfree : s.forwards c = [] := by
    rcases hs.shared.forwards c with hf | ⟨j, h, hj, _⟩
    · exact hf
    · have hat : s.fwdAccept.given (sv, id) = some c := by
        rw [← hgiven]
        exact hheld.1
      obtain rfl := hs.shared.once j (sv, id) c hj.1 hat
      rw [hj.2] at htakers
      cases htakers
  have hshared : (s.takeAcceptConn sv id g).2.Shared :=
    { ok := hok.take _ _
      ids := by
        rw [hgiven]
        exact hs.shared.ids
      issued := hs.shared.issued
      once := by
        rw [hgiven]
        exact hs.shared.once
      takers := by
        intro j h hh
        have hcases := Deposit.mem_takers_take hh
        rcases hcases with hold | rfl
        · exact hs.shared.takers j h hold
        · exact hg
      new := fun c' hc' => huntouched c' (hs.shared.new c' hc')
      forwards := by
        intro c'
        rcases hs.shared.forwards c' with hf | ⟨j, h, hj, hf⟩
        · exact .inl hf
        · exact .inr ⟨j, h, hkeep hj, hf⟩
      closes := by
        intro c' h hh
        rw [hgiven]
        rcases hs.shared.closes c' h hh with ⟨j, hj⟩ | hnever
        · exact .inl ⟨j, hkeep hj⟩
        · exact .inr hnever }
  refine .of_others hshared ?_ fun h _ =>
    (hs.knows h).stable (Nat.le_refl _) (fun _ _ => rfl) (fun _ _ hj => hkeep hj)
      (fun c' _ _ hu => huntouched c' hu) (fun _ _ _ hf => hf)
  cases g with
  | claim n => exact ⟨⟨(sv, id), hheld⟩, hfree⟩
  | listener n | channel n | reaper n => exact ⟨(sv, id), hheld⟩

/-- The handler of a request begins to forward its connection. -/
theorem Inv.forward (hs : Inv s) (hg : s.Knows g (.ack c)) :
    Inv { s.setRoutine g (.forward c) with
      forwards := Function.update s.forwards c (s.forwards c ++ [g]) } := by
  obtain ⟨⟨i, hi⟩, hnone⟩ := hg
  let t : State := { s with forwards := Function.update s.forwards c (s.forwards c ++ [g]) }
  have hsame : ∀ c', c' ≠ c → t.forwards c' = s.forwards c' := fun c' hne =>
    Function.update_of_ne hne ..
  have huntouched : ∀ c', s.Untouched c' → t.Untouched c' := by
    intro c' ⟨hnever, hf, hc⟩
    refine ⟨hnever, ?_, hc⟩
    rw [hsame c' (by rintro rfl; exact hnever i hi.1)]
    exact hf
  have hshared : t.Shared :=
    { hs.shared with
      new := fun c' hc' => huntouched c' (hs.shared.new c' hc')
      forwards := by
        intro c'
        by_cases hc' : c' = c
        · right
          refine ⟨i, g, by rw [hc']; exact hi, ?_⟩
          show Function.update s.forwards c (s.forwards c ++ [g]) c' = [g]
          rw [hc', Function.update_self, hnone, List.nil_append]
        · rw [hsame c' hc']
          exact hs.shared.forwards c' }
  refine Inv.of_others (s := t) hshared ⟨i, hi⟩ fun h hh => ?_
  refine (hs.knows h).stable (Nat.le_refl _) (fun _ _ => rfl) (fun _ _ hj => hj)
    (fun c' _ _ hu => huntouched c' hu) ?_
  intro j c' hj hf
  rw [hsame c' ?_]
  · exact hf
  · rintro rfl
    exact hh (hs.shared.held_unique hj hi)

/-- A goroutine closes a connection that it holds, or that only it has seen. -/
theorem Inv.close (hs : Inv s) (hlt : c < s.conns)
    (hg : (∃ i, s.fwdAccept.Held i c g) ∨ (s.origin c = some g ∧ s.Untouched c)) :
    Inv { s.setRoutine g .done with
      closes := Function.update s.closes c (s.closes c ++ [g]) } := by
  let t : State := { s with closes := Function.update s.closes c (s.closes c ++ [g]) }
  have hsame : ∀ c', c' ≠ c → t.closes c' = s.closes c' := fun c' hne =>
    Function.update_of_ne hne ..
  have huntouched : ∀ c', c' ≠ c → s.Untouched c' → t.Untouched c' := by
    intro c' hne ⟨hnever, hf, hc⟩
    exact ⟨hnever, hf, (hsame c' hne).trans hc⟩
  have hshared : t.Shared :=
    { hs.shared with
      new := by
        intro c' hc'
        have hle : s.conns ≤ c' := hc'
        exact huntouched c' (by omega) (hs.shared.new c' hle)
      closes := by
        intro c' h hh
        by_cases hc' : c' = c
        · subst hc'
          have hmem : h ∈ s.closes c' ++ [g] := by
            have hupdate : t.closes c' = s.closes c' ++ [g] := Function.update_self ..
            rw [← hupdate]
            exact hh
          rcases List.mem_append.mp hmem with hold | hnew
          · exact hs.shared.closes c' h hold
          -- the new entry is that of `g`, which may close the connection
          · obtain rfl := List.mem_singleton.mp hnew
            rcases hg with hheld | ⟨_, hu⟩
            · exact .inl hheld
            · exact .inr hu.1
        · rw [hsame c' hc'] at hh
          exact hs.shared.closes c' h hh }
  refine Inv.of_others (s := t) hshared trivial fun h hh => ?_
  refine (hs.knows h).stable (Nat.le_refl _) (fun _ _ => rfl) (fun _ _ hj => hj) ?_
    (fun _ _ _ hf => hf)
  intro c' _ ho hu
  refine huntouched c' ?_ hu
  rintro rfl
  -- another goroutine's untouched connection is not the one `g` closes
  rcases hg with ⟨i, hi⟩ | ⟨ho', _⟩
  · exact hu.1 i hi.1
  · rw [ho'] at ho
    exact hh (Option.some.inj ho).symm

theorem State.Shared.lt_of_held (hs : s.Shared) (hi : s.fwdAccept.Held i c g) : c < s.conns := by
  by_contra hge
  exact (hs.new c (Nat.le_of_not_lt hge)).1 i hi.1

/-! ### Runs -/

/-- **Step**: the next step of a goroutine. -/
theorem Inv.step (hs : Inv s) {ok : Bool} (hstep : s.step g ok = some s') : Inv s' := by
  have hg := hs.knows g
  unfold State.step at hstep
  cases hq : s.routines g with
  | idle | load | arm | done =>
    rw [hq] at hstep
    cases hstep
  | accept sv =>
    rw [hq] at hstep
    obtain rfl := Option.some.inj hstep
    exact hs.move trivial
  | park sv c =>
    rw [hq] at hstep hg
    obtain rfl := Option.some.inj hstep
    exact hs.addAcceptConn hg
  | send sv id =>
    rw [hq] at hstep
    obtain rfl := Option.some.inj hstep
    apply hs.move
    cases g with
    | listener n => cases ok <;> trivial
    | channel n | reaper n | claim n => trivial
  | take sv id =>
    rw [hq] at hstep hg
    have hcases : ∀ o, (s.takeAcceptConn sv id g).1 = o → Inv s' := by
      intro o ho
      simp only at hstep
      have hpair : s.takeAcceptConn sv id g = (o, (s.takeAcceptConn sv id g).2) := by rw [← ho]
      rw [hpair] at hstep
      cases o with
      | none =>
        -- somebody else was first, or the id was never issued
        obtain rfl := Option.some.inj hstep
        have hsame : (s.takeAcceptConn sv id g).2 = s := by
          show { s with fwdAccept := (s.fwdAccept.take (sv, id) g).2 } = s
          rw [Deposit.take_of_none ho]
        rw [hsame]
        exact hs.move trivial
      | some c =>
        obtain rfl := Option.some.inj hstep
        exact hs.takeAcceptConn hg ho
    exact hcases _ rfl
  | ack c =>
    rw [hq] at hstep hg
    cases ok with
    | true =>
      obtain rfl := Option.some.inj hstep
      exact hs.forward hg
    | false =>
      obtain rfl := Option.some.inj hstep
      exact hs.move hg.1
  | forward c =>
    rw [hq] at hstep hg
    obtain rfl := Option.some.inj hstep
    exact hs.move hg
  | closing c =>
    rw [hq] at hstep hg
    obtain rfl := Option.some.inj hstep
    obtain ⟨i, hi⟩ := hg
    exact hs.close (hs.shared.lt_of_held hi) (.inl ⟨i, hi⟩)
  | drop c =>
    rw [hq] at hstep hg
    obtain rfl := Option.some.inj hstep
    exact hs.close hg.1 (.inr hg.2)

theorem Inv.next (hs : Inv s) {l : Label} (hnext : next s l = some s') : Inv s' := by
  cases l with
  | listen n sv | claim n sv id =>
    obtain ⟨_, rfl⟩ := enabledIf_eq_some hnext
    exact hs.move trivial
  | accept n =>
    simp only [AcceptedConns.next] at hnext
    split at hnext
    · obtain rfl := Option.some.inj hnext
      exact hs.newConn fun t c hlt ho hu => ⟨hlt, ho, hu⟩
    · cases hnext
  | channel n =>
    obtain ⟨_, rfl⟩ := enabledIf_eq_some hnext
    exact hs.newConn fun t c hlt ho hu => ⟨hlt, ho, hu⟩
  | load n server =>
    have hg := hs.knows (.channel n)
    simp only [AcceptedConns.next] at hnext
    cases hq : s.routines (.channel n) with
    | load c =>
      rw [hq] at hnext hg
      cases server with
      | some sv | none =>
        obtain rfl := Option.some.inj hnext
        exact hs.move hg
    | _ =>
      rw [hq] at hnext
      cases hnext
  | arm g n =>
    simp only [AcceptedConns.next] at hnext
    split at hnext
    · next sv id _ =>
      obtain ⟨_, rfl⟩ := enabledIf_eq_some hnext
      have harmed : Inv (s.setRoutine (.reaper n) (.take sv id)) := hs.move trivial
      exact harmed.move trivial
    · cases hnext
  | step g ok => exact hs.step hnext

/-- **Run**: the invariant holds in every reachable state. -/
theorem server_inv (hs : server.Reachable s) : Inv s :=
  System.invariant_ofStep start_inv (fun _ _ _ h => h.next) hs

/-- **Accepted connections are exclusive.**  In every state that is reached, whatever ids the
    clients ask for:

    * no server has handed out an id twice;
    * a connection that was parked is still in the map and nobody has got it, or it is no
      longer there and exactly one handler, reaper or listener has got it;
    * no connection was forwarded twice, and one that was forwarded was closed by the goroutine
      that forwarded it only. -/
theorem accepted_conn_exclusive (hs : server.Reachable s) :
    (∀ sv, (s.issued sv).Nodup) ∧
    (∀ sv id c, s.fwdAccept.given (sv, id) = some c →
      (s.fwdAccept.items (sv, id) = some c ∧ s.fwdAccept.takers (sv, id) = []) ∨
      (s.fwdAccept.items (sv, id) = none ∧
        ∃ g : Gid, g.Takes ∧ s.fwdAccept.takers (sv, id) = [g])) ∧
    (∀ i j c, s.fwdAccept.given i = some c → s.fwdAccept.given j = some c → i = j) ∧
    ∀ c, (s.forwards c).length ≤ 1 ∧ ∀ g ∈ s.forwards c, ∀ h ∈ s.closes c, h = g := by
  have hinv := (server_inv hs).shared
  refine ⟨?_, ?_, hinv.once, ?_⟩
  · intro sv
    rw [hinv.issued]
    exact List.nodup_range
  · intro sv id c hgiven
    rcases hinv.ok (sv, id) with ⟨hnone, _⟩ | ⟨c', hgiven', hstill | ⟨hgone, g, hg⟩⟩
    · rw [hgiven] at hnone
      cases hnone
    · rw [hgiven] at hgiven'
      obtain rfl := Option.some.inj hgiven'
      exact .inl hstill
    · refine .inr ⟨hgone, g, hinv.takers (sv, id) g ?_, hg⟩
      rw [hg]
      exact List.mem_singleton_self g
  · intro c
    rcases hinv.forwards c with hf | ⟨i, g, hheld, hf⟩
    · rw [hf]
      exact ⟨Nat.zero_le _, fun g hg => absurd hg List.not_mem_nil⟩
    · rw [hf]
      refine ⟨Nat.le_refl _, ?_⟩
      intro g' hg' h hh
      obtain rfl := List.mem_singleton.mp hg'
      rcases hinv.closes c h hh with ⟨j, hj⟩ | hnever
      · exact hinv.held_unique hj hheld
      · exact absurd hheld.1 (hnever i)

/-- A connection is parked; two handlers, one of them for an id that was never issued, and the
    reaper ask for it, and the second handler is first. -/
def race : List Label :=
  [Label.listen 0 7, Label.accept 0, Label.step (.listener 0) true, Label.arm (.listener 0) 0,
   Label.step (.listener 0) true, Label.claim 0 7 5, Label.claim 1 7 0, Label.step (.claim 0) true,
   Label.step (.claim 1) true, Label.step (.reaper 0) true, Label.step (.claim 1) true,
   Label.step (.claim 1) true, Label.step (.claim 1) true]

theorem accepted_conn_exclusive_race :
    ∃ s, server.Reachable s ∧ s.fwdAccept.takers (7, 0) = [.claim 1] ∧
      s.forwards 0 = [.claim 1] ∧ s.closes 0 = [.claim 1] ∧
      ∀ g ∈ s.forwards 0, ∀ h ∈ s.closes 0, h = g := by
  obtain ⟨s, hrun, htakers, hforwards, hcloses⟩ : ∃ s, runLabels next start race = some s ∧
      s.fwdAccept.takers (7, 0) = [.claim 1] ∧ s.forwards 0 = [.claim 1] ∧
      s.closes 0 = [.claim 1] :=
    exists_of_runLabels (by decide +kernel)
  have hs : server.Reachable s := .of_runLabels (fun _ _ _ h => h) (.init rfl) hrun
  exact ⟨s, hs, htakers, hforwards, hcloses, ((accepted_conn_exclusive hs).2.2.2 0).2⟩

end AcceptedConns
