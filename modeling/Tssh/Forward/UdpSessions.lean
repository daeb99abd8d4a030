import Tssh.Framework.Deposit
import Tssh.Framework.System

/-! # UDP Sessions of Forwarded Ports

    A forwarded UDP port has one session for each peer address (`tsshd/datagram.go`).  The
    loop of the listener (`handleListenUdpEvent`) creates it in `udpFwdSessionMap` under a key
    made of the listener and the address, puts it into `udpFwdPendingMap` under its channel id
    and tells the id to the client.  The client's accept request (`handleAcceptUdpEvent`)
    takes the session from there, acknowledges, and consumes it until it releases it, that is
    deletes its key from `udpFwdSessionMap`.

    Two early returns do not fit:

    * the handler of a request that cannot acknowledge returns and leaves the session in the
      map, where nobody will release it any more;
    * a listener whose message cannot be sent releases the session even if a handler has it.
      The handler then releases it once more, and may delete the entry of a newer session of
      the same peer.

    In the runs without these two, every session of the map is waiting or owned by one
    goroutine, and releasing a session removes no other one (`udp_sessions_owned`).
-/

open LTS

namespace UdpSessions

/-! ## Goroutines -/

/-- The loop of a listener, or the handler of an accept request. -/
inductive Gid where
  | listener (n : Nat)
  | handler (n : Nat)
  deriving DecidableEq, Repr

/-- The `sessionKey`: the listener's id and the address of the peer. -/
abbrev Key := Nat × Nat

/-- Where a goroutine is; `x` is a session, called by its channel id. -/
inductive Routine where
  | idle
  /-- `listenerConn.ReadFrom(buf)`. -/
  | read
  /-- `acquireUdpForwardSession`. -/
  | acquire (k : Key)
  /-- `session.writePacket` for a new session. -/
  | write (x : Nat)
  /-- `addUdpFwdPendingSession`. -/
  | add (x : Nat)
  /-- `sendMessage(stream, acceptUdpMessage{id})`. -/
  | send (x : Nat)
  /-- `takeUdpFwdPendingSession` after a failed send. -/
  | takeBack (x : Nat)
  /-- `takeUdpFwdPendingSession` for a request. -/
  | take (id : Nat)
  /-- `sendSuccess(stream)`. -/
  | ack (x : Nat)
  /-- `session.attachStream(stream)`. -/
  | attach (x : Nat)
  /-- `session.forwardConn.Consume(..)`. -/
  | consume (x : Nat)
  /-- `releaseUdpForwardSession`. -/
  | release (x : Nat)
  | done
  deriving DecidableEq, Repr

/-- The maps and the counter of the channel ids.  `pending` is `udpFwdPendingMap`; `keyOf` is
    the field `sessionKey`.  History: who created a session, and which sessions were removed
    from the map by the release of which. -/
structure State where
  /-- An `atomic.Uint64`; the runs are those with fewer than 2^64 channels. -/
  nextUdpFwdChannelID : Nat
  sessionMap : Key → Option Nat
  keyOf : Nat → Key
  pending : Deposit Nat Nat Gid
  routines : Gid → Routine
  origin : Nat → Option Gid
  removals : List (Nat × Nat)

def start : State where
  nextUdpFwdChannelID := 0
  sessionMap := fun _ => none
  keyOf := fun _ => (0, 0)
  pending := .empty
  routines := fun _ => .idle
  origin := fun _ => none
  removals := []

def State.setRoutine (s : State) (g : Gid) (q : Routine) : State :=
  { s with routines := Function.update s.routines g q }

/-- `acquireUdpForwardSession` where the key is new: the session and the state. -/
def State.create (s : State) (g : Gid) (k : Key) : Nat × State :=
  let x := s.nextUdpFwdChannelID + 1
  (x, { s with
    nextUdpFwdChannelID := x
    sessionMap := Function.update s.sessionMap k (some x)
    keyOf := Function.update s.keyOf x k
    origin := Function.update s.origin x (some g) })

/-- `releaseUdpForwardSession`: the key is deleted, whatever it stands for. -/
def State.release (s : State) (x : Nat) : State :=
  { s with
    sessionMap := Function.update s.sessionMap (s.keyOf x) none
    removals := s.removals ++ ((s.sessionMap (s.keyOf x)).toList.map fun y => (x, y)) }

/-- `takeUdpFwdPendingSession`, called by `g`. -/
def State.takePending (s : State) (id : Nat) (g : Gid) : Option Nat × State :=
  ((s.pending.take id g).1, { s with pending := (s.pending.take id g).2 })

inductive Label where
  /-- Listener `n` is started. -/
  | listen (n : Nat)
  /-- A packet from this address arrives at listener `n`. -/
  | packet (n addr : Nat)
  /-- A client asks for the session with this id. -/
  | accept (n id : Nat)
  /-- A dial request takes a channel id for itself. -/
  | dial
  /-- The next step of a goroutine; `ok` is whether a send succeeds, and whether a listener
      goes on after an error. -/
  | step (g : Gid) (ok : Bool)
  deriving DecidableEq, Repr

/-- After a release: the listener goes on or ends, the handler ends. -/
def Gid.afterRelease (ok : Bool) : Gid → Routine
  | .listener _ => if ok then .read else .done
  | .handler _ => .done

/-- The next step of goroutine `g`. -/
def State.step (s : State) (g : Gid) (ok : Bool) : Option State :=
  match s.routines g with
  -- the listener was closed
  | .read => some (s.setRoutine g .done)
  | .acquire k =>
    match s.sessionMap k with
    | some _ => some (s.setRoutine g .read)
    | none =>
      let (x, s) := s.create g k
      some (s.setRoutine g (.write x))
  | .write x => some (s.setRoutine g (.add x))
  | .add x => some ({ s with pending := s.pending.put x x }.setRoutine g (.send x))
  | .send x => some (s.setRoutine g (if ok then .read else .takeBack x))
  -- the result is not looked at
  | .takeBack x => some ((s.takePending x g).2.setRoutine g (.release x))
  | .take id =>
    match s.takePending id g with
    | (none, s) => some (s.setRoutine g .done)
    | (some x, s) => some (s.setRoutine g (.ack x))
  | .ack x => some (s.setRoutine g (if ok then .attach x else .done))
  | .attach x => some (s.setRoutine g (.consume x))
  | .consume x => some (s.setRoutine g (.release x))
  | .release x => some ((s.release x).setRoutine g (g.afterRelease ok))
  | _ => none

def next (s : State) : Label → Option State
  | .listen n =>
    enabledIf (s.routines (.listener n) = .idle) (s.setRoutine (.listener n) .read)
  | .packet n addr =>
    enabledIf (s.routines (.listener n) = .read) (s.setRoutine (.listener n) (.acquire (n, addr)))
  | .accept n id =>
    enabledIf (s.routines (.handler n) = .idle) (s.setRoutine (.handler n) (.take id))
  | .dial => some { s with nextUdpFwdChannelID := s.nextUdpFwdChannelID + 1 }
  | .step g ok => s.step g ok

def server : System State Label := .ofStep start next

/-! ## The property and the condition -/

/-- The goroutine has the session and will put it into the pending map or release it. -/
def Routine.Owns (x : Nat) : Routine → Prop
  | .write y | .add y | .ack y | .attach y | .consume y | .release y => y = x
  | _ => False

/-- The session waits in the pending map, or some goroutine owns it. -/
def State.Owned (s : State) (x : Nat) : Prop :=
  s.pending.items x = some x ∨ ∃ g, (s.routines g).Owns x

/-- A handler can acknowledge a session it has taken, and a listener whose message failed finds
    its session still waiting. -/
def HandsOver (s : State) : Label → Prop
  | .step g ok =>
    match s.routines g with
    | .ack _ => ok = true
    | .takeBack x => s.pending.items x = some x
    | _ => True
  | _ => True

instance (s : State) (l : Label) : Decidable (HandsOver s l) := by
  unfold HandsOver
  split
  · split <;> infer_instance
  · infer_instance

/-! ## Invariant

    Every session of the map has one owner: its listener until it is pending, and then the
    goroutine that takes it.  As long as nobody else releases it, the key stands for it. -/

variable {s s' : State} {g h : Gid} {q : Routine} {x y : Nat} {k : Key}

/-- The map has the session under its key. -/
def State.Stored (s : State) (x : Nat) : Prop := s.sessionMap (s.keyOf x) = some x

/-- What a goroutine knows about its session. -/
def State.Knows (s : State) (g : Gid) : Routine → Prop
  | .write x | .add x =>
    x ≤ s.nextUdpFwdChannelID ∧ s.origin x = some g ∧ s.pending.given x = none ∧ s.Stored x
  | .ack x | .attach x | .consume x | .release x => s.pending.Held x x g ∧ s.Stored x
  | _ => True

/-- The invariant of the shared state. -/
structure State.Shared (s : State) : Prop where
  ok : s.pending.Ok
  given : ∀ i x, s.pending.given i = some x → x = i ∧ i ≤ s.nextUdpFwdChannelID
  waiting : ∀ i x, s.pending.items i = some x → s.Stored x
  keys : ∀ k x, s.sessionMap k = some x → s.keyOf x = k ∧ x ≤ s.nextUdpFwdChannelID
  removals : ∀ p ∈ s.removals, p.1 = p.2

structure Inv (s : State) : Prop where
  shared : s.Shared
  knows : ∀ g, s.Knows g (s.routines g)
  owned : ∀ k x, s.sessionMap k = some x → s.Owned x

theorem start_inv : Inv start where
  shared :=
    { ok := Deposit.ok_empty
      given := fun _ _ hi => absurd hi (Option.some_ne_none _).symm
      waiting := fun _ _ hi => absurd hi (Option.some_ne_none _).symm
      keys := fun _ _ hk => absurd hk (Option.some_ne_none _).symm
      removals := fun _ hp => absurd hp List.not_mem_nil }
  knows := fun _ => trivial
  owned := fun _ _ hk => absurd hk (Option.some_ne_none _).symm

/-- What another goroutine knows stays true if its session is left alone. -/
theorem State.Knows.stable (hk : s.Knows h q)
    (hnext : s.nextUdpFwdChannelID ≤ s'.nextUdpFwdChannelID)
    (horigin : ∀ x ≤ s.nextUdpFwdChannelID, s'.origin x = s.origin x)
    (hnew : ∀ x, s.origin x = some h → s.pending.given x = none → s.Stored x →
      s'.pending.given x = none ∧ (x ≤ s.nextUdpFwdChannelID → s'.Stored x))
    (hheld : ∀ x, s.pending.Held x x h → s.Stored x → s'.pending.Held x x h ∧ s'.Stored x) :
    s'.Knows h q := by
  cases q with
  | write x | add x =>
    obtain ⟨hle, ho, hgiven, hstored⟩ := hk
    obtain ⟨hgiven', hstored'⟩ := hnew x ho hgiven hstored
    exact ⟨Nat.le_trans hle hnext, (horigin x hle).trans ho, hgiven', hstored' hle⟩
  | ack x | attach x | consume x | release x => exact hheld x hk.1 hk.2
  | idle | read | acquire | send | takeBack | take | done => trivial

/-- Goroutine `g` goes on at `q`; the others know what they knew, and the sessions of `g` are
    waiting, owned by it or removed. -/
theorem Inv.of_others (hs : s.Shared) (hg : s.Knows g q)
    (hothers : ∀ h, h ≠ g → s.Knows h (s.routines h))
    (howned : ∀ k x, s.sessionMap k = some x →
      s.pending.items x = some x ∨ q.Owns x ∨ ∃ h, h ≠ g ∧ (s.routines h).Owns x) :
    Inv (s.setRoutine g q) := by
  have hself : (s.setRoutine g q).routines g = q := Function.update_self ..
  have hother : ∀ h, h ≠ g → (s.setRoutine g q).routines h = s.routines h := fun h hh =>
    Function.update_of_ne hh ..
  refine ⟨⟨hs.ok, hs.given, hs.waiting, hs.keys, hs.removals⟩, ?_, ?_⟩
  · intro h
    by_cases hh : h = g
    · subst hh
      rw [hself]
      exact hg
    · rw [hother h hh]
      exact hothers h hh
  · intro k x hk
    rcases howned k x hk with hitem | hq | ⟨h, hh, hx⟩
    · exact .inl hitem
    · exact .inr ⟨g, by rw [hself]; exact hq⟩
    · exact .inr ⟨h, by rw [hother h hh]; exact hx⟩

/-- Who owns a session, seen from goroutine `g`. -/
theorem Inv.owner (hs : Inv s) (hk : s.sessionMap k = some x) :
    s.pending.items x = some x ∨ (s.routines g).Owns x ∨ ∃ h, h ≠ g ∧ (s.routines h).Owns x := by
  rcases hs.owned k x hk with hitem | ⟨h, hx⟩
  · exact .inl hitem
  · by_cases hh : h = g
    · exact .inr (.inl (hh ▸ hx))
    · exact .inr (.inr ⟨h, hh, hx⟩)

/-- A step that changes the goroutine only, and not what it owns. -/
theorem Inv.move (hs : Inv s) (hg : s.Knows g q)
    (howns : ∀ x, (s.routines g).Owns x → q.Owns x) : Inv (s.setRoutine g q) := by
  refine .of_others hs.shared hg (fun h _ => hs.knows h) fun k x hk => ?_
  rcases hs.owner hk with hitem | hx | hother
  · exact .inl hitem
  · exact .inr (.inl (howns x hx))
  · exact .inr (.inr hother)

/-! ### The steps that change the shared state -/

/-- `acquireUdpForwardSession` for a key that is not in the map. -/
theorem Inv.create (hs : Inv s) (hq : s.routines g = .acquire k) (hk : s.sessionMap k = none) :
    Inv ((s.create g k).2.setRoutine g (.write (s.create g k).1)) := by
  let x := s.nextUdpFwdChannelID + 1
  have hgiven : s.pending.given x = none := by
    cases hx : s.pending.given x with
    | none => rfl
    | some y =>
      have hle := (hs.shared.given x y hx).2
      omega
  have hkeyx : (s.create g k).2.keyOf x = k := Function.update_self ..
  have hkeyof : ∀ y ≤ s.nextUdpFwdChannelID, (s.create g k).2.keyOf y = s.keyOf y := by
    intro y hy
    exact Function.update_of_ne (by omega) ..
  have hmap : ∀ k', k' ≠ k → (s.create g k).2.sessionMap k' = s.sessionMap k' := fun k' hne =>
    Function.update_of_ne hne ..
  have hmapk : (s.create g k).2.sessionMap k = some x := Function.update_self ..
  -- sessions that were stored have another key
  have hstored : ∀ y, s.Stored y → y ≤ s.nextUdpFwdChannelID → (s.create g k).2.Stored y := by
    intro y hy hle
    have hne : s.keyOf y ≠ k := by
      intro heq
      rw [State.Stored, heq, hk] at hy
      cases hy
    rw [State.Stored, hkeyof y hle, hmap _ hne]
    exact hy
  have hshared : (s.create g k).2.Shared :=
    { ok := hs.shared.ok
      given := fun i y hi => by
        obtain ⟨rfl, hle⟩ := hs.shared.given i y hi
        exact ⟨rfl, Nat.le_succ_of_le hle⟩
      waiting := fun i y hi => by
        have hsaved := hs.shared.waiting i y hi
        have hgiveni := (hs.shared.ok.of_item hi).1
        obtain ⟨rfl, hle⟩ := hs.shared.given i y hgiveni
        exact hstored y hsaved hle
      keys := fun k' y hy => by
        by_cases hk' : k' = k
        · subst hk'
          rw [hmapk] at hy
          obtain rfl := Option.some.inj hy
          exact ⟨hkeyx, Nat.le_refl _⟩
        · rw [hmap k' hk'] at hy
          obtain ⟨hkey, hle⟩ := hs.shared.keys k' y hy
          exact ⟨(hkeyof y hle).trans hkey, Nat.le_succ_of_le hle⟩
      removals := hs.shared.removals }
  refine .of_others hshared ?_ ?_ ?_
  · refine ⟨Nat.le_refl _, Function.update_self .., hgiven, ?_⟩
    show (s.create g k).2.sessionMap ((s.create g k).2.keyOf x) = some x
    rw [hkeyx, hmapk]
  · intro h _
    refine (hs.knows h).stable (Nat.le_succ _) ?_ ?_ ?_
    · intro y hy
      exact Function.update_of_ne (by omega) ..
    · intro y _ hnone hy
      exact ⟨hnone, hstored y hy⟩
    · intro y hy hsaved
      exact ⟨hy, hstored y hsaved (hs.shared.given y y hy.1).2⟩
  · intro k' y hy
    by_cases hk' : k' = k
    · subst hk'
      rw [hmapk] at hy
      exact .inr (.inl (Option.some.inj hy))
    · rw [hmap k' hk'] at hy
      rcases hs.owner (g := g) hy with hitem | hx | hother
      · exact .inl hitem
      · rw [hq] at hx
        exact hx.elim
      · exact .inr (.inr hother)

/-- `addUdpFwdPendingSession`. -/
theorem Inv.addPending (hs : Inv s) (hq : s.routines g = .add x) :
    Inv ({ s with pending := s.pending.put x x }.setRoutine g (.send x)) := by
  have hg := hs.knows g
  rw [hq] at hg
  obtain ⟨hle, horigin, hfree, hstored⟩ := hg
  let t : State := { s with pending := s.pending.put x x }
  have hitems : ∀ i, i ≠ x → t.pending.items i = s.pending.items i := fun i hne =>
    Function.update_of_ne hne ..
  have hitemx : t.pending.items x = some x := Function.update_self ..
  have hshared : t.Shared :=
    { ok := hs.shared.ok.put hfree
      given := fun i y hi => by
        rcases Deposit.given_put_cases hi with ⟨rfl, rfl⟩ | ⟨_, hold⟩
        · exact ⟨rfl, hle⟩
        · exact hs.shared.given i y hold
      waiting := fun i y hi => by
        by_cases hix : i = x
        · subst hix
          rw [hitemx] at hi
          obtain rfl := Option.some.inj hi
          exact hstored
        · rw [hitems i hix] at hi
          exact hs.shared.waiting i y hi
      keys := hs.shared.keys
      removals := hs.shared.removals }
  refine Inv.of_others (s := t) hshared trivial ?_ ?_
  · intro h hh
    refine (hs.knows h).stable (Nat.le_refl _) (fun _ _ => rfl) ?_ ?_
    · intro y hy hnone hsaved
      -- the other goroutine has created another session
      have hne : y ≠ x := by
        rintro rfl
        rw [horigin] at hy
        exact hh (Option.some.inj hy).symm
      exact ⟨(Deposit.given_put_ne hne).trans hnone, fun _ => hsaved⟩
    · intro y hy hsaved
      exact ⟨hy.put hfree, hsaved⟩
  · intro k y hk
    rcases hs.owner (g := g) hk with hitem | hy | hother
    · left
      by_cases hyx : y = x
      · rw [hyx]
        exact hitemx
      · rw [hitems y hyx]
        exact hitem
    · rw [hq] at hy
      obtain rfl : x = y := hy
      exact .inl hitemx
    · exact .inr (.inr hother)

/-- A goroutine takes a waiting session and owns it from then on. -/
theorem Inv.takePending (hs : Inv s) {q : Routine} (htake : (s.pending.take x g).1 = some x)
    (hq : ∀ t : State, t.pending.Held x x g → t.Stored x → t.Knows g q) (hqx : q.Owns x)
    (hidle : ∀ y, ¬ (s.routines g).Owns y) :
    Inv ((s.takePending x g).2.setRoutine g q) := by
  have hok := hs.shared.ok
  obtain ⟨hheld, _⟩ := hok.held_of_take htake
  have hitem : s.pending.items x = some x := by rw [← Deposit.fst_take, htake]
  have hitems : ∀ i, i ≠ x → (s.takePending x g).2.pending.items i = s.pending.items i :=
    fun i hne => Deposit.items_take_ne hne
  have hgiven : (s.takePending x g).2.pending.given = s.pending.given := Deposit.given_take
  have hshared : (s.takePending x g).2.Shared :=
    { ok := hok.take x g
      given := by
        rw [hgiven]
        exact hs.shared.given
      waiting := fun i y hi => hs.shared.waiting i y (Deposit.items_of_items_take hi)
      keys := hs.shared.keys
      removals := hs.shared.removals }
  refine .of_others hshared (hq _ hheld (hs.shared.waiting x x hitem)) ?_ ?_
  · intro h _
    refine (hs.knows h).stable (Nat.le_refl _) (fun _ _ => rfl) ?_ ?_
    · intro y _ hnone hsaved
      rw [hgiven]
      exact ⟨hnone, fun _ => hsaved⟩
    · intro y hy hsaved
      exact ⟨hok.held_take hy x g, hsaved⟩
  · intro k y hk
    by_cases hyx : y = x
    · exact .inr (.inl (hyx ▸ hqx))
    · rcases hs.owner (g := g) hk with hy | hy | hother
      · left
        rw [hitems y hyx]
        exact hy
      · exact absurd hy (hidle y)
      · exact .inr (.inr hother)

/-- `releaseUdpForwardSession` by the owner: it removes its own session. -/
theorem Inv.release (hs : Inv s) {q : Routine} (hg : s.routines g = .release x)
    (hq : ∀ t : State, t.Knows g q) : Inv ((s.release x).setRoutine g q) := by
  have hknows := hs.knows g
  rw [hg] at hknows
  obtain ⟨hheld, hstored⟩ := hknows
  have hmapx : (s.release x).sessionMap (s.keyOf x) = none := Function.update_self ..
  have hmap : ∀ k, k ≠ s.keyOf x → (s.release x).sessionMap k = s.sessionMap k := fun k hne =>
    Function.update_of_ne hne ..
  -- every other stored session has another key
  have hother : ∀ y, y ≠ x → s.Stored y → (s.release x).Stored y := by
    intro y hne hy
    have hkey : s.keyOf y ≠ s.keyOf x := by
      intro heq
      rw [State.Stored, heq, hstored] at hy
      exact hne (Option.some.inj hy).symm
    show (s.release x).sessionMap (s.keyOf y) = some y
    rw [hmap _ hkey]
    exact hy
  have hshared : (s.release x).Shared :=
    { ok := hs.shared.ok
      given := hs.shared.given
      waiting := fun i y hi => by
        refine hother y ?_ (hs.shared.waiting i y hi)
        rintro rfl
        -- a session that was taken is not waiting
        obtain ⟨hgiven, htakers⟩ := hs.shared.ok.of_item hi
        obtain ⟨rfl, _⟩ := hs.shared.given i y hgiven
        rw [hheld.2] at htakers
        cases htakers
      keys := fun k y hy => by
        by_cases hk : k = s.keyOf x
        · rw [hk, hmapx] at hy
          cases hy
        · rw [hmap k hk] at hy
          exact hs.shared.keys k y hy
      removals := fun p hp => by
        have hp' : p ∈ s.removals ++ ((s.sessionMap (s.keyOf x)).toList.map fun y => (x, y)) := hp
        rw [show s.sessionMap (s.keyOf x) = some x from hstored] at hp'
        rcases List.mem_append.mp hp' with hold | hnew
        · exact hs.shared.removals p hold
        · obtain rfl := List.mem_singleton.mp hnew
          rfl }
  refine .of_others hshared (hq _) ?_ ?_
  · intro h hh
    refine (hs.knows h).stable (Nat.le_refl _) (fun _ _ => rfl) ?_ ?_
    · intro y _ hnone hsaved
      refine ⟨hnone, fun _ => hother y ?_ hsaved⟩
      rintro rfl
      rw [hheld.1] at hnone
      cases hnone
    · intro y hy hsaved
      refine ⟨hy, hother y ?_ hsaved⟩
      rintro rfl
      exact hh (hy.unique hheld).2
  · intro k y hy
    have hk : k ≠ s.keyOf x := by
      rintro rfl
      rw [hmapx] at hy
      cases hy
    rw [hmap k hk] at hy
    rcases hs.owner (g := g) hy with hitem | hown | hoth
    · exact .inl hitem
    · rw [hg] at hown
      obtain rfl : x = y := hown
      exact absurd (hs.shared.keys k x hy).1.symm hk
    · exact .inr (.inr hoth)

/-! ### Runs -/

theorem HandsOver.takeBack {ok : Bool} (hok : HandsOver s (.step g ok))
    (hq : s.routines g = .takeBack x) : s.pending.items x = some x := by
  simpa [HandsOver, hq] using hok

theorem HandsOver.ack {ok : Bool} (hok : HandsOver s (.step g ok)) (hq : s.routines g = .ack x) :
    ok = true := by
  simpa [HandsOver, hq] using hok

/-- **Step**: the next step of a goroutine, if it meets the condition. -/
theorem Inv.step (hs : Inv s) {ok : Bool} (hok : HandsOver s (.step g ok))
    (hstep : s.step g ok = some s') : Inv s' := by
  have hg := hs.knows g
  unfold State.step at hstep
  cases hq : s.routines g with
  | idle | done =>
    rw [hq] at hstep
    cases hstep
  | read =>
    rw [hq] at hstep
    obtain rfl := Option.some.inj hstep
    exact hs.move trivial (by rw [hq]; exact fun _ hx => hx.elim)
  | acquire k =>
    rw [hq] at hstep
    simp only at hstep
    cases hk : s.sessionMap k with
    | some y =>
      rw [hk] at hstep
      obtain rfl := Option.some.inj hstep
      exact hs.move trivial (by rw [hq]; exact fun _ hx => hx.elim)
    | none =>
      rw [hk] at hstep
      obtain rfl := Option.some.inj hstep
      -- no session has the key: a new one is stored under it
      exact hs.create hq hk
  | write x | attach x | consume x =>
    rw [hq] at hstep hg
    obtain rfl := Option.some.inj hstep
    exact hs.move hg (by rw [hq]; exact fun _ hx => hx)
  | add x =>
    rw [hq] at hstep
    obtain rfl := Option.some.inj hstep
    exact hs.addPending hq
  | send x =>
    rw [hq] at hstep
    obtain rfl := Option.some.inj hstep
    refine hs.move ?_ (by rw [hq]; exact fun _ hx => hx.elim)
    cases ok <;> trivial
  | takeBack x =>
    rw [hq] at hstep
    obtain rfl := Option.some.inj hstep
    -- by the condition no `handleAcceptUdpEvent` has taken it in between
    have hwaiting := hok.takeBack hq
    refine hs.takePending (by rw [Deposit.fst_take, hwaiting]) (fun t hheld hstored => ?_) rfl
      (by rw [hq]; exact fun _ hx => hx)
    exact ⟨hheld, hstored⟩
  | take id =>
    rw [hq] at hstep
    -- `takePending` gives nothing, or the session of that id to this goroutine only
    have hcases : ∀ o, (s.takePending id g).1 = o → Inv s' := by
      intro o ho
      have hpair : s.takePending id g = (o, (s.takePending id g).2) := by rw [← ho]
      simp only at hstep
      rw [hpair] at hstep
      cases o with
      | none =>
        obtain rfl := Option.some.inj hstep
        have hsame : (s.takePending id g).2 = s := by
          show { s with pending := (s.pending.take id g).2 } = s
          rw [Deposit.take_of_none ho]
        rw [hsame]
        exact hs.move trivial (by rw [hq]; exact fun _ hx => hx.elim)
      | some x =>
        obtain rfl := Option.some.inj hstep
        have hitem : s.pending.items id = some x := by rw [← Deposit.fst_take]; exact ho
        obtain ⟨rfl, _⟩ := hs.shared.given id x (hs.shared.ok.of_item hitem).1
        refine hs.takePending ho (fun t hheld hstored => ?_) rfl
          (by rw [hq]; exact fun _ hx => hx)
        exact ⟨hheld, hstored⟩
    exact hcases _ rfl
  | ack x =>
    rw [hq] at hstep hg
    -- by the condition the answer is sent
    obtain rfl := hok.ack hq
    obtain rfl := Option.some.inj hstep
    exact hs.move hg (by rw [hq]; exact fun _ hx => hx)
  | release x =>
    rw [hq] at hstep
    obtain rfl := Option.some.inj hstep
    refine hs.release hq fun t => ?_
    cases g with
    | listener n => cases ok <;> trivial
    | handler n => trivial

theorem Inv.dial (hs : Inv s) :
    Inv { s with nextUdpFwdChannelID := s.nextUdpFwdChannelID + 1 } := by
  refine ⟨⟨hs.shared.ok, ?_, hs.shared.waiting, ?_, hs.shared.removals⟩, ?_, hs.owned⟩
  · intro i x hi
    obtain ⟨hx, hle⟩ := hs.shared.given i x hi
    exact ⟨hx, Nat.le_succ_of_le hle⟩
  · intro k x hk
    obtain ⟨hkey, hle⟩ := hs.shared.keys k x hk
    exact ⟨hkey, Nat.le_succ_of_le hle⟩
  · intro h
    exact (hs.knows h).stable (Nat.le_succ _) (fun _ _ => rfl)
      (fun _ _ hnone hsaved => ⟨hnone, fun _ => hsaved⟩) (fun _ hheld hsaved => ⟨hheld, hsaved⟩)

/-- **Run**: the invariant holds in every run whose steps meet the condition. -/
theorem server_inv (hs : (server.restrict HandsOver).Reachable s) : Inv s := by
  refine System.invariant_restrict start_inv (fun s l s' h hok hnext => ?_) hs
  cases l with
  | listen n | packet n addr | accept n id =>
    obtain ⟨hq, rfl⟩ := enabledIf_eq_some hnext
    exact h.move trivial (by rw [hq]; exact fun _ hx => hx.elim)
  | dial =>
    obtain rfl := Option.some.inj hnext
    exact h.dial
  | step g ok => exact h.step hok hnext

/-- **UDP sessions are owned.**  In every run in which handlers can acknowledge what they have
    taken, and a listener whose message failed finds its session still waiting: each session of
    `udpFwdSessionMap` waits in the pending map or has a goroutine that will put it there or
    release it, and no release has removed the entry of another session. -/
theorem udp_sessions_owned (hs : (server.restrict HandsOver).Reachable s) :
    (∀ k x, s.sessionMap k = some x → s.Owned x) ∧ ∀ p ∈ s.removals, p.1 = p.2 :=
  ⟨(server_inv hs).owned, (server_inv hs).shared.removals⟩

/-- A session is accepted and released, and the message for the next one of the same peer cannot
    be sent. -/
def handedOver : List Label :=
  [Label.listen 0, Label.packet 0 9, Label.step (.listener 0) true, Label.step (.listener 0) true,
   Label.step (.listener 0) true, Label.step (.listener 0) true, Label.accept 0 1,
   Label.step (.handler 0) true, Label.step (.handler 0) true, Label.step (.handler 0) true,
   Label.step (.handler 0) true, Label.step (.handler 0) true, Label.packet 0 9,
   Label.step (.listener 0) true, Label.step (.listener 0) true, Label.step (.listener 0) true,
   Label.step (.listener 0) false, Label.step (.listener 0) true, Label.step (.listener 0) true]

theorem udp_sessions_owned_handed_over :
    ∃ s, (server.restrict HandsOver).Reachable s ∧ s.removals = [(1, 1), (2, 2)] ∧
      ∀ p ∈ s.removals, p.1 = p.2 := by
  obtain ⟨s, hrun, hremovals⟩ : ∃ s,
      runLabels (fun s l => if HandsOver s l then next s l else none) start handedOver = some s ∧
      s.removals = [(1, 1), (2, 2)] :=
    exists_of_runLabels (by decide +kernel)
  have hs := System.Reachable.of_runLabels_restrict hrun
  exact ⟨s, hs, hremovals, (udp_sessions_owned hs).2⟩

/-- The handler of a request takes session `1` and cannot acknowledge. -/
def ackFails : List Label :=
  [Label.listen 0, Label.packet 0 9, Label.step (.listener 0) true, Label.step (.listener 0) true,
   Label.step (.listener 0) true, Label.step (.listener 0) true, Label.accept 0 1,
   Label.step (.handler 0) true, Label.step (.handler 0) false]

/-- Session `1` is consumed while the listener's message fails.  The listener releases it and
    creates session `2` for the next packet; then the handler releases session `1`. -/
def releasedTwice : List Label :=
  [Label.listen 0, Label.packet 0 9, Label.step (.listener 0) true, Label.step (.listener 0) true,
   Label.step (.listener 0) true, Label.accept 0 1, Label.step (.handler 0) true,
   Label.step (.handler 0) true, Label.step (.handler 0) true, Label.step (.listener 0) false,
   Label.step (.listener 0) true, Label.step (.listener 0) true, Label.packet 0 9,
   Label.step (.listener 0) true, Label.step (.handler 0) true, Label.step (.handler 0) true]

/-- The goroutine whose step a label is. -/
def Label.actor : Label → Option Gid
  | .listen n | .packet n _ => some (.listener n)
  | .accept n _ => some (.handler n)
  | .dial => none
  | .step g _ => some g

/-- A step moves one goroutine. -/
theorem routines_of_next {l : Label} (hnext : next s l = some s') (hh : l.actor ≠ some h) :
    s'.routines h = s.routines h := by
  have hset : ∀ (t : State) g q, t.routines = s.routines → some g ≠ some h →
      (t.setRoutine g q).routines h = s.routines h := by
    intro t g q ht hne
    rw [← ht]
    exact Function.update_of_ne (fun heq => hne (congrArg some heq.symm)) ..
  cases l with
  | listen n | packet n addr | accept n id =>
    obtain ⟨_, rfl⟩ := enabledIf_eq_some hnext
    exact hset s _ _ rfl hh
  | dial =>
    obtain rfl := Option.some.inj hnext
    rfl
  | step g ok =>
    have hstep : s.step g ok = some s' := hnext
    unfold State.step at hstep
    split at hstep
    case h_2 k hq =>
      split at hstep
      · obtain rfl := Option.some.inj hstep
        exact hset s g _ rfl hh
      · obtain rfl := Option.some.inj hstep
        exact hset (s.create g k).2 g _ rfl hh
    case h_7 id hq =>
      split at hstep
      · next t heq =>
        obtain rfl := Option.some.inj hstep
        have ht : (s.takePending id g).2.routines = s.routines := rfl
        rw [heq] at ht
        exact hset t g _ ht hh
      · next x t heq =>
        obtain rfl := Option.some.inj hstep
        have ht : (s.takePending id g).2.routines = s.routines := rfl
        rw [heq] at ht
        exact hset t g _ ht hh
    all_goals first
      | cases hstep
        done
      | obtain rfl := Option.some.inj hstep
        exact hset _ g _ rfl hh

/-- A goroutine that takes no step stays where it is. -/
theorem routines_of_runLabels (ls : List Label) (hls : ∀ l ∈ ls, l.actor ≠ some h) :
    ∀ s s', runLabels next s ls = some s' → s'.routines h = s.routines h := by
  induction ls with
  | nil =>
    intro s s' hrun
    obtain rfl := Option.some.inj hrun
    rfl
  | cons l ls ih =>
    intro s s' hrun
    obtain ⟨t, hnext, hrest⟩ := Option.bind_eq_some_iff.mp hrun
    rw [ih (fun l' hl' => hls l' (List.mem_cons_of_mem _ hl')) t s' hrest]
    exact routines_of_next hnext (hls l List.mem_cons_self)

/-- After the first run nobody owns session `1`, which is in the map; in the second one the
    release of session `1` has removed session `2`. -/
theorem udp_session_abandoned :
    (∃ s, server.Reachable s ∧ s.sessionMap (0, 9) = some 1 ∧ ¬ s.Owned 1) ∧
    ∃ s, server.Reachable s ∧ (1, 2) ∈ s.removals := by
  constructor
  · obtain ⟨s, hrun, hmap, hitem, hlistener, hhandler⟩ : ∃ s,
        runLabels next start ackFails = some s ∧
        s.sessionMap (0, 9) = some 1 ∧ s.pending.items 1 = none ∧
        s.routines (.listener 0) = .read ∧ s.routines (.handler 0) = .done :=
      exists_of_runLabels (by decide +kernel)
    refine ⟨s, .of_runLabels (fun _ _ _ h => h) (.init rfl) hrun, hmap, ?_⟩
    rintro (hwaiting | ⟨g, hg⟩)
    · rw [hitem] at hwaiting
      cases hwaiting
    · by_cases h0 : g = .listener 0
      · rw [h0, hlistener] at hg
        exact hg
      · by_cases h1 : g = .handler 0
        · rw [h1, hhandler] at hg
          exact hg
        · -- no other goroutine was started
          have hactors : ∀ l ∈ ackFails, l.actor = some (.listener 0) ∨
              l.actor = some (.handler 0) := by decide
          have hidle := routines_of_runLabels (h := g) ackFails (fun l hl heq => by
            rcases hactors l hl with ha | ha
            · rw [ha] at heq
              exact h0 (Option.some.inj heq).symm
            · rw [ha] at heq
              exact h1 (Option.some.inj heq).symm) start s hrun
          rw [hidle] at hg
          exact hg
  · obtain ⟨s, hrun, h⟩ : ∃ s, runLabels next start releasedTwice = some s ∧
        (1, 2) ∈ s.removals :=
      exists_of_runLabels (by decide +kernel)
    exact ⟨s, .of_runLabels (fun _ _ _ h => h) (.init rfl) hrun, h⟩

end UdpSessions
