import Mathlib.Logic.Function.Basic
import Tssh.Framework.Slice
import Tssh.Framework.System

/-! # Forwarded Connections

    A forwarded connection is copied from one program to another by relays: `tcpForward` of the
    client (`tssh/forward_tcp.go`) and `forwardConnection` of the server (`tsshd/forward.go`), and
    more of them where the client goes through other servers.  A relay has one goroutine for each
    direction.  It reads and writes in turn until there is an error or the end of the input,
    closes the writing side of where it writes to, then the reading side of where it reads from;
    when both have ended, the relay closes both connections.

    * **Model**: `n` relays in a row, with `n + 1` pipes in each direction.  One step for each
      read, write and close; reads and writes take any part of what is there.  An error may come
      at any time: of `Read` or `Write` (a reset by the other side among them), or of
      `waitUntilReconnected` in `forwardConnOutput`, where a wait that succeeds is a pause.
    * **Resets**: a connection that is closed while the other side has sent more than was read is
      reset, and what was not read yet in the healthy direction is lost.
    * `relay_in_order`: what arrives is a prefix of what was sent, in each direction.  Where no
      goroutine of the direction met an error, the end of the data arrives behind all of it.

    Left out: a `Close` of the stream by somebody else while the relay runs, as
    `closeActiveStreams` does (`Tssh.Session.StreamShutdown`).  Its other end then finds the end
    of the data although no goroutine met an error, so the second half of `relay_in_order` is
    about relays that are left alone.
-/

namespace Relay

open LTS Go

/-! ## Model -/

inductive Dir where
  | up
  | down
  deriving DecidableEq, Repr

def Dir.other : Dir → Dir
  | .up => .down
  | .down => .up

/-- One direction of a connection between two neighbours. -/
structure Pipe where
  queue : Bytes
  /-- The writing side was closed. -/
  eof : Bool
  /-- The reading side was closed. -/
  dead : Bool
  /-- The connection was reset: what is in `queue` will not be read. -/
  reset : Bool
  /-- **History**: all that was written. -/
  written : Bytes
  /-- **History**: all that was read. -/
  taken : Bytes
  deriving DecidableEq, Repr

def Pipe.empty : Pipe :=
  { queue := [], eof := false, dead := false, reset := false, written := [], taken := [] }

/-- A write of `buf`. -/
def Pipe.put (p : Pipe) (buf : Bytes) : Pipe :=
  { p with queue := p.queue ++ buf, written := p.written ++ buf }

/-- A read of `k` bytes. -/
def Pipe.get (p : Pipe) (k : Nat) : Pipe :=
  { p with queue := p.queue.drop k, taken := p.taken ++ p.queue.take k }

/-- What follows a write: the next read, or the end where `Read` has returned it with the data. -/
inductive After where
  | again
  | ended
  deriving DecidableEq, Repr

/-- Where a copying goroutine is. -/
inductive Pc where
  | reading
  /-- In `writeAll`, with what is left of the buffer. -/
  | writing (rest : Bytes) (after : After)
  | closeWrite
  | closeRead
  | done
  deriving DecidableEq, Repr

/-- A copying goroutine, and whether it met an error. -/
structure Hop where
  pc : Pc
  failed : Bool
  deriving DecidableEq, Repr

/-- One direction: goroutine `i` copies from pipe `i` to pipe `i + 1`. -/
structure Way where
  pipes : Nat → Pipe
  hops : Nat → Hop

namespace Way

variable (w : Way)

def setPipe (i : Nat) (p : Pipe) : Way := { w with pipes := Function.update w.pipes i p }

def setHop (i : Nat) (h : Hop) : Way := { w with hops := Function.update w.hops i h }

def setPc (i : Nat) (pc : Pc) : Way := w.setHop i { w.hops i with pc := pc }

end Way

/-- What happens in one direction. -/
inductive Step where
  /-- The sender writes, and closes its side. -/
  | send (buf : Bytes)
  | finish
  /-- The receiver reads, and closes its side. -/
  | recv (k : Nat)
  | stop
  /-- Goroutine `i` reads, reads the last bytes with the end, or the end alone. -/
  | read (i k : Nat)
  | readLast (i : Nat)
  | eof (i : Nat)
  | write (i k : Nat)
  /-- Goroutine `i` meets an error and leaves its loop. -/
  | fail (i : Nat)
  | closeWrite (i : Nat)
  | closeRead (i : Nat)
  deriving DecidableEq, Repr

/-- The goroutine is in its loop. -/
def Pc.running : Pc → Bool
  | .reading | .writing _ _ => true
  | _ => false

/-- Where the goroutine is when `rest` is left to be written. -/
def afterWrite (rest : Bytes) (after : After) : Pc :=
  if rest = [] then
    match after with
    | .again => .reading
    | .ended => .closeWrite
  else .writing rest after

/-- Which pipes have a `CloseWrite`, and which a `CloseRead`: not every connection has them. -/
structure Ends where
  closesWrite : Nat → Bool
  closesRead : Nat → Bool

/-- The size of the buffers. -/
def bufferSize : Nat := 32 * 1024

section Steps

variable (n : Nat) (ends : Ends)

/-- `CloseWrite` of the connection of pipe `i`, where it has one. -/
def closePipeWrite (w : Way) (i : Nat) : Way :=
  if ends.closesWrite i then w.setPipe i { w.pipes i with eof := true } else w

/-- `CloseRead`, where there is one. -/
def closePipeRead (w : Way) (i : Nat) : Way :=
  if ends.closesRead i then w.setPipe i { w.pipes i with dead := true } else w

/-- There is something to read, or the end: no error. -/
def Pipe.sound (p : Pipe) : Prop := p.dead = false ∧ p.reset = false

instance (p : Pipe) : Decidable p.sound := inferInstanceAs (Decidable (_ ∧ _))

/-- Goroutine `i` is at `Read`, of a connection whose reading side is open. -/
def Way.canRead (w : Way) (i : Nat) : Prop :=
  i < n ∧ (w.hops i).pc = .reading ∧ (w.pipes i).sound

instance (w : Way) (i : Nat) : Decidable (w.canRead n i) :=
  inferInstanceAs (Decidable (_ ∧ _ ∧ _))

/-- A step in one direction through `n` relays.  A connection whose side was closed, or that was
    reset, gives nothing more on that side but errors. -/
def stepWay (w : Way) : Step → Option Way
  | .send buf =>
    enabledIf ((w.pipes 0).eof = false) (w.setPipe 0 ((w.pipes 0).put buf))
  | .finish => some (w.setPipe 0 { w.pipes 0 with eof := true })
  | .recv k =>
    enabledIf (w.pipes n).sound (w.setPipe n ((w.pipes n).get k))
  | .stop => some (w.setPipe n { w.pipes n with dead := true })
  | .read i k =>
    enabledIf (w.canRead n i ∧ 0 < k ∧ k ≤ (w.pipes i).queue.length ∧ k ≤ bufferSize)
      ((w.setPipe i ((w.pipes i).get k)).setPc i (.writing ((w.pipes i).queue.take k) .again))
  | .readLast i =>
    enabledIf (w.canRead n i ∧ (w.pipes i).queue ≠ [] ∧ (w.pipes i).queue.length ≤ bufferSize ∧
        (w.pipes i).eof = true)
      ((w.setPipe i ((w.pipes i).get (w.pipes i).queue.length)).setPc i
        (.writing (w.pipes i).queue .ended))
  | .eof i =>
    enabledIf (w.canRead n i ∧ (w.pipes i).queue = [] ∧ (w.pipes i).eof = true)
      (w.setPc i .closeWrite)
  | .write i k =>
    match (w.hops i).pc with
    | .writing rest after =>
      enabledIf (i < n ∧ 0 < k ∧ k ≤ rest.length ∧ (w.pipes (i + 1)).eof = false)
        ((w.setPipe (i + 1) ((w.pipes (i + 1)).put (rest.take k))).setPc i
          (afterWrite (rest.drop k) after))
    | _ => none
  | .fail i =>
    enabledIf (i < n ∧ (w.hops i).pc.running = true)
      (w.setHop i { pc := .closeWrite, failed := true })
  | .closeWrite i =>
    enabledIf (i < n ∧ (w.hops i).pc = .closeWrite)
      ((closePipeWrite ends w (i + 1)).setPc i .closeRead)
  | .closeRead i =>
    enabledIf (i < n ∧ (w.hops i).pc = .closeRead) ((closePipeRead ends w i).setPc i .done)

/-- `Close` of both connections of a relay, as far as this direction is concerned. -/
def closeWay (w : Way) (i : Nat) : Way :=
  let w := w.setPipe i { w.pipes i with dead := true }
  w.setPipe (i + 1) { w.pipes (i + 1) with eof := true }

/-- The connection behind goroutine `i` is reset. -/
def resetWay (w : Way) (i : Nat) : Way :=
  w.setPipe (i + 1) { w.pipes (i + 1) with reset := true }

end Steps

/-- `closed r` tells that relay `r` has closed its connections. -/
structure State where
  ways : Dir → Way
  closed : Nat → Bool

/-- Something happens in one direction; relay `r` closes its connections; the connection that it
    wrote to in direction `d` is reset. -/
inductive Label where
  | step (d : Dir) (step : Step)
  | close (r : Nat)
  | reset (r : Nat) (d : Dir)
  deriving DecidableEq, Repr

/-- The goroutine of relay `r` in each direction: the relays are counted from the client. -/
def hopOf (n r : Nat) : Dir → Nat
  | .up => r
  | .down => n - 1 - r

section Runs

variable (n : Nat) (ends : Dir → Ends)

def start : State where
  ways := fun _ =>
    { pipes := fun _ => .empty, hops := fun _ => { pc := .reading, failed := false } }
  closed := fun _ => false

def next (s : State) : Label → Option State
  | .step d step =>
    (stepWay n (ends d) (s.ways d) step).map fun w =>
      { s with ways := Function.update s.ways d w }
  | .close r =>
    -- `wg.Wait()`
    enabledIf (r < n ∧ ∀ d ∈ [Dir.up, Dir.down], ((s.ways d).hops (hopOf n r d)).pc = .done)
      { ways := fun d => closeWay (s.ways d) (hopOf n r d)
        closed := Function.update s.closed r true }
  | .reset r d =>
    -- the other direction of the connection has bytes that were not read before `Close`, or
    -- that came after it
    enabledIf (s.closed r = true ∧ ((s.ways d.other).pipes (hopOf n r d.other)).queue ≠ [])
      { s with ways := Function.update s.ways d (resetWay (s.ways d) (hopOf n r d)) }

/-- All runs of a forwarded connection. -/
def relayRuns : System State Label := .ofStep start (next n ends)

end Runs

/-- What the sender of a direction has written. -/
def State.sent (s : State) (d : Dir) : Bytes := ((s.ways d).pipes 0).written

/-- What the receiver has read. -/
def State.got (n : Nat) (s : State) (d : Dir) : Bytes := ((s.ways d).pipes n).taken

/-! ## One goroutine -/

/-- The bytes a goroutine has read and not written yet. -/
def Pc.held : Pc → Bytes
  | .writing rest _ => rest
  | _ => []

/-- The goroutine has seen the end of its input, or an error. -/
def Pc.past : Pc → Bool
  | .writing _ .ended | .closeWrite | .closeRead | .done => true
  | _ => false

/-- What is known of a goroutine between its two pipes. -/
structure HopOk (p q : Pipe) (h : Hop) : Prop where
  order : q.written <+: p.taken
  stopped : h.failed = true → h.pc.running = false
  whole : h.failed = false → p.taken = q.written ++ h.pc.held
  ended : h.failed = false → h.pc.past = true → p.queue = [] ∧ p.eof = true
  eof : q.eof = true → h.pc = .closeRead ∨ h.pc = .done
  dead : p.dead = true → h.pc = .done

namespace HopOk

variable {p p' q q' : Pipe} {h : Hop}

section

variable (hop : HopOk p q h)
include hop

/-- Another writer of the source may add to it, as long as it has not closed it. -/
theorem of_source (htaken : p'.taken = p.taken) (hdead : p'.dead = p.dead)
    (hend : p.queue = [] → p.eof = true → p'.queue = [] ∧ p'.eof = true) : HopOk p' q h where
  order := htaken ▸ hop.order
  stopped := hop.stopped
  whole := htaken ▸ hop.whole
  ended := fun hfailed hpast => hend (hop.ended hfailed hpast).1 (hop.ended hfailed hpast).2
  eof := hop.eof
  dead := hdead ▸ hop.dead

/-- Another reader may take from the destination. -/
theorem of_dest (hwritten : q'.written = q.written) (heof : q'.eof = q.eof) : HopOk p q' h where
  order := hwritten ▸ hop.order
  stopped := hop.stopped
  whole := hwritten ▸ hop.whole
  ended := hop.ended
  eof := heof ▸ hop.eof
  dead := hop.dead

theorem not_failed (hrun : h.pc.running = true) : h.failed = false := by
  cases hfailed : h.failed with
  | false => rfl
  | true => rw [hop.stopped hfailed] at hrun; cases hrun

theorem not_dead (hrun : h.pc.running = true) : p.dead = false := by
  cases hdead : p.dead with
  | false => rfl
  | true => rw [hop.dead hdead] at hrun; cases hrun

theorem not_eof (hrun : h.pc.running = true) : q.eof = false := by
  cases heof : q.eof with
  | false => rfl
  | true => rcases hop.eof heof with hpc | hpc <;> rw [hpc] at hrun <;> cases hrun

/-- A read, of a part of what is there or of all of it with the end. -/
theorem read (hpc : h.pc = .reading) {k : Nat} {after : After}
    (hlast : after = .ended → p.queue.drop k = [] ∧ p.eof = true) :
    HopOk (p.get k) q { h with pc := .writing (p.queue.take k) after } := by
  have hrun : h.pc.running = true := by rw [hpc]; rfl
  have hunfailed := hop.not_failed hrun
  have hwhole : p.taken = q.written := by simpa [hpc, Pc.held] using hop.whole hunfailed
  refine ⟨hop.order.trans (List.prefix_append _ _), ?_, ?_, ?_, ?_, ?_⟩
  · intro hfailed
    rw [hunfailed] at hfailed
    cases hfailed
  · intro _
    show p.taken ++ p.queue.take k = q.written ++ p.queue.take k
    rw [hwhole]
  · intro _ hpast
    cases after with
    | again => cases hpast
    | ended => exact hlast rfl
  · intro heof
    rw [hop.not_eof hrun] at heof
    cases heof
  · intro hdead
    rw [show (p.get k).dead = p.dead from rfl, hop.not_dead hrun] at hdead
    cases hdead

/-- The end of the input, with nothing held. -/
theorem readEof (hpc : h.pc = .reading) (hqueue : p.queue = []) (heof : p.eof = true) :
    HopOk p q { h with pc := .closeWrite } := by
  have hrun : h.pc.running = true := by rw [hpc]; rfl
  refine ⟨hop.order, fun _ => rfl, ?_, fun _ _ => ⟨hqueue, heof⟩, ?_, ?_⟩
  · intro hfailed
    simpa [hpc, Pc.held] using hop.whole hfailed
  · intro heofq
    rw [hop.not_eof hrun] at heofq
    cases heofq
  · intro hdead
    rw [hop.not_dead hrun] at hdead
    cases hdead

end

theorem held_afterWrite (rest : Bytes) (after : After) : (afterWrite rest after).held = rest := by
  unfold afterWrite
  split
  next hrest => cases after <;> exact hrest.symm
  · rfl

theorem past_afterWrite (rest : Bytes) (after : After) (h : (afterWrite rest after).past = true) :
    after = .ended := by
  cases after with
  | ended => rfl
  | again =>
    unfold afterWrite at h
    split at h <;> cases h

variable (hop : HopOk p q h)
include hop

/-- A write of a part of what the goroutine holds. -/
theorem write {rest : Bytes} {after : After} (hpc : h.pc = .writing rest after) (k : Nat) :
    HopOk p (q.put (rest.take k)) { h with pc := afterWrite (rest.drop k) after } := by
  have hrun : h.pc.running = true := by rw [hpc]; rfl
  have hunfailed := hop.not_failed hrun
  have hwhole : p.taken = q.written ++ rest := by simpa [hpc, Pc.held] using hop.whole hunfailed
  have hsplit : p.taken = (q.written ++ rest.take k) ++ rest.drop k := by
    rw [List.append_assoc, List.take_append_drop, hwhole]
  refine ⟨⟨rest.drop k, hsplit.symm⟩, ?_, ?_, ?_, ?_, ?_⟩
  · intro hfailed
    rw [hunfailed] at hfailed
    cases hfailed
  · intro _
    rw [held_afterWrite]
    exact hsplit
  · intro _ hpast
    have hended := past_afterWrite _ _ hpast
    exact hop.ended hunfailed (by rw [hpc, hended]; rfl)
  · intro heof
    rw [show (q.put (rest.take k)).eof = q.eof from rfl, hop.not_eof hrun] at heof
    cases heof
  · intro hdead
    rw [hop.not_dead hrun] at hdead
    cases hdead

/-- An error: what the goroutine holds is lost. -/
theorem fail (hrun : h.pc.running = true) : HopOk p q { pc := .closeWrite, failed := true } := by
  refine ⟨hop.order, fun _ => rfl, nofun, nofun, ?_, ?_⟩
  · intro heof
    rw [hop.not_eof hrun] at heof
    cases heof
  · intro hdead
    rw [hop.not_dead hrun] at hdead
    cases hdead

/-- `CloseWrite`, with or without an effect. -/
theorem closeWrite (hpc : h.pc = .closeWrite) (hwritten : q'.written = q.written) :
    HopOk p q' { h with pc := .closeRead } := by
  refine ⟨hwritten ▸ hop.order, fun _ => rfl, ?_, ?_, fun _ => .inl rfl, ?_⟩
  · intro hfailed
    simpa [hpc, Pc.held, hwritten] using hop.whole hfailed
  · intro hfailed _
    exact hop.ended hfailed (by rw [hpc]; rfl)
  · intro hdead
    rw [hop.dead hdead] at hpc
    cases hpc

/-- `CloseRead`, with or without an effect. -/
theorem closeRead (hpc : h.pc = .closeRead ∨ h.pc = .done) (htaken : p'.taken = p.taken)
    (hqueue : p'.queue = p.queue) (heof : p'.eof = p.eof) (hwritten : q'.written = q.written) :
    HopOk p' q' { h with pc := .done } := by
  have hheld : h.pc.held = [] := by rcases hpc with hpc | hpc <;> rw [hpc] <;> rfl
  have hpast : h.pc.past = true := by rcases hpc with hpc | hpc <;> rw [hpc] <;> rfl
  refine ⟨?_, fun _ => rfl, ?_, ?_, fun _ => .inr rfl, fun _ => rfl⟩
  · rw [hwritten, htaken]
    exact hop.order
  · intro hfailed
    rw [htaken, hwritten, hop.whole hfailed, hheld]
    rfl
  · intro hfailed _
    rw [hqueue, heof]
    exact hop.ended hfailed hpast

/-- The relay closes its connections when the goroutine has ended. -/
theorem closed (hpc : h.pc = .done) (htaken : p'.taken = p.taken) (hqueue : p'.queue = p.queue)
    (heof : p'.eof = p.eof) (hwritten : q'.written = q.written) : HopOk p' q' h := by
  have hself : { h with pc := .done } = h := by rw [← hpc]
  exact hself ▸ hop.closeRead (.inr hpc) htaken hqueue heof hwritten

end HopOk

/-! ## One direction -/

/-- Pipes are first in, first out, and each goroutine is right. -/
structure WayInv (n : Nat) (w : Way) : Prop where
  fifo : ∀ i, (w.pipes i).written = (w.pipes i).taken ++ (w.pipes i).queue
  hops : ∀ i, i < n → HopOk (w.pipes i) (w.pipes (i + 1)) (w.hops i)

namespace WayInv

variable {n : Nat} {w w' : Way} {i : Nat}

theorem start (n : Nat) (d : Dir) : WayInv n (start.ways d) where
  fifo := fun _ => rfl
  hops := fun _ _ => ⟨List.prefix_refl _, by simp [Relay.start], fun _ => rfl,
    by simp [Relay.start, Pc.past], by simp [Relay.start, Pipe.empty],
    by simp [Relay.start, Pipe.empty]⟩

/-- A goroutine moves, and the pipe it reads from with it. -/
theorem setSource (h : WayInv n w) {p : Pipe} {hop : Hop} (hfifo : p.written = p.taken ++ p.queue)
    (hwritten : p.written = (w.pipes i).written) (heof : p.eof = (w.pipes i).eof)
    (hhop : i < n → HopOk p (w.pipes (i + 1)) hop) : WayInv n ((w.setPipe i p).setHop i hop) := by
  refine ⟨fun j => ?_, fun j hj => ?_⟩
  · show (Function.update w.pipes i p j).written = _
    by_cases hji : j = i
    · simpa [Way.setPipe, Way.setHop, hji] using hfifo
    · simpa [Way.setPipe, Way.setHop, hji] using h.fifo j
  · show HopOk (Function.update w.pipes i p j) (Function.update w.pipes i p (j + 1))
      (Function.update w.hops i hop j)
    by_cases hji : j = i
    · subst hji
      rw [Function.update_self, Function.update_self, Function.update_of_ne (Nat.succ_ne_self j)]
      exact hhop hj
    · rw [Function.update_of_ne hji, Function.update_of_ne hji]
      by_cases hbefore : j + 1 = i
      · -- the goroutine that writes into this pipe
        subst hbefore
        rw [Function.update_self]
        exact (h.hops j hj).of_dest hwritten heof
      · rw [Function.update_of_ne hbefore]
        exact h.hops j hj

/-- A goroutine moves, and the pipe it writes to with it. -/
theorem setDest (h : WayInv n w) {q : Pipe} {hop : Hop} (hfifo : q.written = q.taken ++ q.queue)
    (htaken : q.taken = (w.pipes (i + 1)).taken) (hdead : q.dead = (w.pipes (i + 1)).dead)
    (hend : (w.pipes (i + 1)).queue = [] → (w.pipes (i + 1)).eof = true →
      q.queue = [] ∧ q.eof = true)
    (hhop : i < n → HopOk (w.pipes i) q hop) :
    WayInv n ((w.setPipe (i + 1) q).setHop i hop) := by
  refine ⟨fun j => ?_, fun j hj => ?_⟩
  · by_cases hji : j = i + 1
    · simpa [Way.setPipe, Way.setHop, hji] using hfifo
    · simpa [Way.setPipe, Way.setHop, hji] using h.fifo j
  · show HopOk (Function.update w.pipes (i + 1) q j) (Function.update w.pipes (i + 1) q (j + 1))
      (Function.update w.hops i hop j)
    by_cases hji : j = i
    · subst hji
      rw [Function.update_self, Function.update_self,
        Function.update_of_ne (Nat.succ_ne_self j).symm]
      exact hhop hj
    · rw [Function.update_of_ne hji,
        Function.update_of_ne (fun heq : j + 1 = i + 1 => hji (Nat.succ.inj heq))]
      by_cases hafter : j = i + 1
      · -- the goroutine that reads from this pipe
        subst hafter
        rw [Function.update_self]
        exact (h.hops _ hj).of_source htaken hdead hend
      · rw [Function.update_of_ne hafter]
        exact h.hops j hj

/-- The sender changes the first pipe. -/
theorem setFirst (h : WayInv n w) {p : Pipe} (hfifo : p.written = p.taken ++ p.queue)
    (htaken : p.taken = (w.pipes 0).taken) (hdead : p.dead = (w.pipes 0).dead)
    (hend : (w.pipes 0).queue = [] → (w.pipes 0).eof = true → p.queue = [] ∧ p.eof = true) :
    WayInv n (w.setPipe 0 p) := by
  refine ⟨fun j => ?_, fun j hj => ?_⟩
  · by_cases hj : j = 0
    · simpa [Way.setPipe, hj] using hfifo
    · simpa [Way.setPipe, hj] using h.fifo j
  · show HopOk (Function.update w.pipes 0 p j) (Function.update w.pipes 0 p (j + 1)) (w.hops j)
    rw [Function.update_of_ne (Nat.succ_ne_zero j)]
    by_cases hzero : j = 0
    · subst hzero
      rw [Function.update_self]
      exact (h.hops 0 hj).of_source htaken hdead hend
    · rw [Function.update_of_ne hzero]
      exact h.hops j hj

theorem setHop_self (w : Way) (i : Nat) : w.setHop i (w.hops i) = w := by
  simp [Way.setHop]

/-- The pipe goroutine `i` reads from changes, at its reading end. -/
theorem setReadEnd (h : WayInv n w) {p : Pipe} (hfifo : p.written = p.taken ++ p.queue)
    (hwritten : p.written = (w.pipes i).written) (heof : p.eof = (w.pipes i).eof)
    (hhop : i < n → HopOk p (w.pipes (i + 1)) (w.hops i)) : WayInv n (w.setPipe i p) := by
  have hset : WayInv n ((w.setPipe i p).setHop i (w.hops i)) :=
    h.setSource hfifo hwritten heof hhop
  rwa [show (w.setPipe i p).setHop i (w.hops i) = w.setPipe i p from setHop_self _ i] at hset

/-- The pipe goroutine `i` writes to changes, at its writing end. -/
theorem setWriteEnd (h : WayInv n w) {q : Pipe} (hfifo : q.written = q.taken ++ q.queue)
    (htaken : q.taken = (w.pipes (i + 1)).taken) (hdead : q.dead = (w.pipes (i + 1)).dead)
    (hend : (w.pipes (i + 1)).queue = [] → (w.pipes (i + 1)).eof = true →
      q.queue = [] ∧ q.eof = true)
    (hhop : i < n → HopOk (w.pipes i) q (w.hops i)) : WayInv n (w.setPipe (i + 1) q) := by
  have hset : WayInv n ((w.setPipe (i + 1) q).setHop i (w.hops i)) :=
    h.setDest hfifo htaken hdead hend hhop
  rwa [show (w.setPipe (i + 1) q).setHop i (w.hops i) = w.setPipe (i + 1) q
    from setHop_self _ i] at hset

/-- The receiver changes the last pipe. -/
theorem setLast (h : WayInv n w) {p : Pipe} (hfifo : p.written = p.taken ++ p.queue)
    (hwritten : p.written = (w.pipes n).written) (heof : p.eof = (w.pipes n).eof) :
    WayInv n (w.setPipe n p) :=
  h.setReadEnd hfifo hwritten heof (fun hlt => absurd hlt (Nat.lt_irrefl n))

/-- A goroutine moves by itself. -/
theorem setHop (h : WayInv n w) {hop : Hop}
    (hhop : i < n → HopOk (w.pipes i) (w.pipes (i + 1)) hop) : WayInv n (w.setHop i hop) := by
  have hset : WayInv n ((w.setPipe i (w.pipes i)).setHop i hop) :=
    h.setSource (h.fifo i) rfl rfl hhop
  rwa [show w.setPipe i (w.pipes i) = w by simp [Way.setPipe]] at hset

theorem put_fifo {p : Pipe} (h : p.written = p.taken ++ p.queue) (buf : Bytes) :
    (p.put buf).written = (p.put buf).taken ++ (p.put buf).queue := by
  simp [Pipe.put, h]

theorem get_fifo {p : Pipe} (h : p.written = p.taken ++ p.queue) (k : Nat) :
    (p.get k).written = (p.get k).taken ++ (p.get k).queue := by
  simp [Pipe.get, h]

variable (h : WayInv n w)
include h

/-- `CloseWrite` behind goroutine `i`. -/
theorem closeWrite (ends : Ends) (hpc : (w.hops i).pc = .closeWrite) :
    WayInv n ((closePipeWrite ends w (i + 1)).setPc i .closeRead) := by
  unfold closePipeWrite
  split
  · exact h.setDest (h.fifo (i + 1)) rfl rfl (fun hqueue _ => ⟨hqueue, rfl⟩)
      (fun hi => (h.hops i hi).closeWrite hpc rfl)
  · exact h.setHop fun hi => (h.hops i hi).closeWrite hpc rfl

/-- `CloseRead` before goroutine `i`. -/
theorem closeRead (ends : Ends) (hpc : (w.hops i).pc = .closeRead) :
    WayInv n ((closePipeRead ends w i).setPc i .done) := by
  unfold closePipeRead
  split
  · exact h.setSource (h.fifo i) rfl rfl
      (fun hi => (h.hops i hi).closeRead (.inl hpc) rfl rfl rfl rfl)
  · exact h.setHop fun hi => (h.hops i hi).closeRead (.inl hpc) rfl rfl rfl rfl

/-- Every step in one direction keeps the invariant. -/
theorem step {ends : Ends} {step : Step} (hstep : stepWay n ends w step = some w') :
    WayInv n w' := by
  cases step with
  | send buf =>
    obtain ⟨heof, rfl⟩ := enabledIf_eq_some hstep
    -- the reader has not seen the end, so more may come
    refine h.setFirst (put_fifo (h.fifo 0) buf) rfl rfl fun _ hend => ?_
    rw [heof] at hend
    cases hend
  | finish =>
    obtain rfl := Option.some.inj hstep
    exact h.setFirst (h.fifo 0) rfl rfl fun hqueue _ => ⟨hqueue, rfl⟩
  | recv k =>
    obtain ⟨-, rfl⟩ := enabledIf_eq_some hstep
    exact h.setLast (get_fifo (h.fifo n) k) rfl rfl
  | stop =>
    obtain rfl := Option.some.inj hstep
    exact h.setLast (h.fifo n) rfl rfl
  | read i k =>
    obtain ⟨⟨⟨-, hpc, -⟩, -⟩, rfl⟩ := enabledIf_eq_some hstep
    exact h.setSource (get_fifo (h.fifo i) k) rfl rfl fun hi => (h.hops i hi).read hpc nofun
  | readLast i =>
    obtain ⟨⟨⟨-, hpc, -⟩, -, -, heof⟩, rfl⟩ := enabledIf_eq_some hstep
    refine h.setSource (get_fifo (h.fifo i) _) rfl rfl fun hi => ?_
    have hread : HopOk _ _ { w.hops i with
        pc := .writing ((w.pipes i).queue.take (w.pipes i).queue.length) .ended } :=
      (h.hops i hi).read hpc fun _ => ⟨List.drop_length, heof⟩
    rwa [List.take_length] at hread
  | eof i =>
    obtain ⟨⟨⟨-, hpc, -⟩, hqueue, heof⟩, rfl⟩ := enabledIf_eq_some hstep
    exact h.setHop fun hi => (h.hops i hi).readEof hpc hqueue heof
  | write i k =>
    simp only [stepWay] at hstep
    split at hstep
    next rest after hpc =>
      obtain ⟨⟨-, -, -, hopen⟩, rfl⟩ := enabledIf_eq_some hstep
      refine h.setDest (put_fifo (h.fifo (i + 1)) _) rfl rfl ?_
        (fun hi => (h.hops i hi).write hpc k)
      -- the reader has not seen the end here either
      intro _ heof
      rw [hopen] at heof
      cases heof
    next => cases hstep
  | fail i =>
    obtain ⟨⟨-, hrun⟩, rfl⟩ := enabledIf_eq_some hstep
    exact h.setHop fun hi => (h.hops i hi).fail hrun
  | closeWrite i =>
    obtain ⟨⟨-, hpc⟩, rfl⟩ := enabledIf_eq_some hstep
    exact h.closeWrite ends hpc
  | closeRead i =>
    obtain ⟨⟨-, hpc⟩, rfl⟩ := enabledIf_eq_some hstep
    exact h.closeRead ends hpc

/-- The relay's `Close` comes when the goroutine has ended. -/
theorem close (hpc : (w.hops i).pc = .done) : WayInv n (closeWay w i) := by
  have hdead : WayInv n (w.setPipe i { w.pipes i with dead := true }) :=
    h.setReadEnd (h.fifo i) rfl rfl fun hi => (h.hops i hi).closed hpc rfl rfl rfl rfl
  refine hdead.setWriteEnd (hdead.fifo (i + 1)) rfl rfl (fun hqueue _ => ⟨hqueue, rfl⟩) ?_
  exact fun hi => (hdead.hops i hi).closed hpc rfl rfl rfl rfl

/-- A reset only keeps what is in the pipe from being read. -/
theorem reset : WayInv n (resetWay w i) :=
  h.setWriteEnd (h.fifo (i + 1)) rfl rfl (fun hqueue heof => ⟨hqueue, heof⟩)
    fun hi => (h.hops i hi).of_dest rfl rfl

end WayInv

/-! ## From end to end -/

namespace WayInv

variable {n : Nat} {w : Way}

/-- Every pipe has carried a prefix of what was sent. -/
theorem written_within_sent (h : WayInv n w) :
    ∀ i ≤ n, (w.pipes i).written <+: (w.pipes 0).written := by
  intro i
  induction i with
  | zero => exact fun _ => List.prefix_refl _
  | succ i ih =>
    intro hi
    have htaken : (w.pipes i).taken <+: (w.pipes i).written := ⟨_, (h.fifo i).symm⟩
    exact (h.hops i hi).order.trans (htaken.trans (ih (Nat.le_of_succ_le hi)))

/-- Where no goroutine failed, a closed pipe has carried all that was sent, and the sender has
    closed its side. -/
theorem written_of_eof (h : WayInv n w) (hunfailed : ∀ i < n, (w.hops i).failed = false) :
    ∀ i ≤ n, (w.pipes i).eof = true →
      (w.pipes i).written = (w.pipes 0).written ∧ (w.pipes 0).eof = true := by
  intro i
  induction i with
  | zero => exact fun _ heof => ⟨rfl, heof⟩
  | succ i ih =>
    intro hi heof
    have hop := h.hops i hi
    have hpc := hop.eof heof
    have hheld : (w.hops i).pc.held = [] := by rcases hpc with hpc | hpc <;> rw [hpc] <;> rfl
    have hpast : (w.hops i).pc.past = true := by rcases hpc with hpc | hpc <;> rw [hpc] <;> rfl
    -- the goroutine has read all there was, and has written all it read
    obtain ⟨hqueue, heofi⟩ := hop.ended (hunfailed i hi) hpast
    obtain ⟨hwritten, hsender⟩ := ih (Nat.le_of_succ_le hi) heofi
    refine ⟨?_, hsender⟩
    calc (w.pipes (i + 1)).written
        = (w.pipes i).taken := by rw [hop.whole (hunfailed i hi), hheld, List.append_nil]
      _ = (w.pipes i).written := by rw [h.fifo i, hqueue, List.append_nil]
      _ = (w.pipes 0).written := hwritten

end WayInv

/-- Each direction is right. -/
def Inv (n : Nat) (s : State) : Prop := ∀ d, WayInv n (s.ways d)

namespace Inv

variable {n : Nat} {ends : Dir → Ends} {s s' : State}

/-- One direction changes. -/
theorem setWay (h : Inv n s) {w : Way} (d : Dir) (hw : WayInv n w) :
    Inv n { s with ways := Function.update s.ways d w } := by
  intro d'
  show WayInv n (Function.update s.ways d w d')
  by_cases hd : d' = d
  · subst hd
    rwa [Function.update_self]
  · rw [Function.update_of_ne hd]
    exact h d'

theorem next (h : Inv n s) {l : Label} (hnext : next n ends s l = some s') : Inv n s' := by
  cases l with
  | step d step =>
    obtain ⟨w, hstep, rfl⟩ := Option.map_eq_some_iff.mp hnext
    exact h.setWay d ((h d).step hstep)
  | reset r d =>
    obtain ⟨-, rfl⟩ := enabledIf_eq_some hnext
    exact h.setWay d (h d).reset
  | close r =>
    obtain ⟨⟨-, hdone⟩, rfl⟩ := enabledIf_eq_some hnext
    exact fun d => (h d).close (hdone d (by cases d <;> simp))

theorem reachable (hs : (relayRuns n ends).Reachable s) : Inv n s :=
  System.invariant_ofStep (WayInv.start n) (fun _ _ _ h => h.next) hs

end Inv

/-- **In order**: what the receiver has read is a prefix of what the sender has written, in each
    direction and whatever fails.  Where no goroutine of the direction failed, the receiver finds
    the end only behind all that was sent, and only if the sender has closed its side. -/
theorem relay_in_order {n : Nat} {ends : Dir → Ends} {s : State}
    (hs : (relayRuns n ends).Reachable s) (d : Dir) :
    s.got n d <+: s.sent d ∧
    ((∀ i < n, ((s.ways d).hops i).failed = false) → ((s.ways d).pipes n).eof = true →
      ((s.ways d).pipes n).queue = [] →
      s.got n d = s.sent d ∧ ((s.ways d).pipes 0).eof = true) := by
  have h := Inv.reachable hs d
  have hfifo := h.fifo n
  refine ⟨?_, fun hunfailed heof hqueue => ?_⟩
  · have htaken : ((s.ways d).pipes n).taken <+: ((s.ways d).pipes n).written := ⟨_, hfifo.symm⟩
    exact htaken.trans (h.written_within_sent n (Nat.le_refl n))
  · obtain ⟨hwritten, hsender⟩ := h.written_of_eof hunfailed n (Nat.le_refl n) heof
    refine ⟨?_, hsender⟩
    calc s.got n d
        = ((s.ways d).pipes n).written := by rw [hfifo, hqueue, List.append_nil]; rfl
      _ = s.sent d := hwritten

/-- Every connection has both. -/
def bothEnds : Dir → Ends := fun _ => { closesWrite := fun _ => true, closesRead := fun _ => true }

/-- A request goes up through two relays while the first goroutine of the answer fails. -/
def failsDown : List Label :=
  [.step .up (.send [1, 2, 3]), .step .down (.send [9]), .step .up (.read 0 2),
    .step .down (.read 0 1), .step .down (.fail 0), .step .up .finish, .step .up (.write 0 1),
    .step .down (.closeWrite 0), .step .up (.write 0 1), .step .up (.readLast 0),
    .step .up (.write 0 1), .step .up (.closeWrite 0), .step .up (.closeRead 0),
    .step .down (.closeRead 0), .step .up (.read 1 3), .step .up (.write 1 3), .step .up (.eof 1),
    .step .up (.closeWrite 1), .step .up (.recv 3), .step .up (.closeRead 1), .close 1]

/-- The request arrives whole, after the relay of the failure has closed its connections. -/
theorem failsDown_in_order :
    ∃ s, (relayRuns 2 bothEnds).Reachable s ∧ ((s.ways .down).hops 0).failed = true ∧
      s.got 2 .up = s.sent .up ∧ s.sent .up = [1, 2, 3] := by
  obtain ⟨s, hrun, hfailed, hsent, hfirst, hsecond, heof, hqueue⟩ :
      ∃ s, runLabels (next 2 bothEnds) start failsDown = some s ∧
        ((s.ways .down).hops 0).failed = true ∧ s.sent .up = [1, 2, 3] ∧
        ((s.ways .up).hops 0).failed = false ∧ ((s.ways .up).hops 1).failed = false ∧
        ((s.ways .up).pipes 2).eof = true ∧ ((s.ways .up).pipes 2).queue = [] :=
    exists_of_runLabels (by decide +kernel)
  have hs : (relayRuns 2 bothEnds).Reachable s := .of_runLabels (fun _ _ _ h => h) (.init rfl) hrun
  have hunfailed : ∀ i < 2, ((s.ways .up).hops i).failed = false
    | 0, _ => hfirst
    | 1, _ => hsecond
  exact ⟨s, hs, hfailed, ((relay_in_order hs .up).2 hunfailed heof hqueue).1, hsent⟩

end Relay
