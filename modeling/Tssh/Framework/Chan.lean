import Mathlib.Tactic.Common

/-! # Go Channels

    A buffered channel with the faults of its operations: closing a closed channel and sending
    on one panic.  An operation that blocks is `none`.
-/

namespace Go

inductive Panic where
  | closeOfClosed
  | sendOnClosed
  deriving DecidableEq, Repr

/-- A channel with `cap` places. -/
structure Chan (α : Type) where
  cap : Nat
  queue : List α
  closed : Bool
  deriving DecidableEq, Repr

namespace Chan

variable {α : Type}

def make (cap : Nat) : Chan α := { cap := cap, queue := [], closed := false }

/-- `close(c)`. -/
def close (c : Chan α) : Except Panic (Chan α) :=
  if c.closed then .error .closeOfClosed else .ok { c with closed := true }

/-- `c <- x`; blocks while the channel is full. -/
def send (c : Chan α) (x : α) : Option (Except Panic (Chan α)) :=
  if c.closed then some (.error .sendOnClosed)
  else if c.queue.length < c.cap then some (.ok { c with queue := c.queue ++ [x] })
  else none

/-- `select { case c <- x: default: }`; with it, whether the value was sent. -/
def trySend (c : Chan α) (x : α) : Except Panic (Chan α × Bool) :=
  if c.closed then .error .sendOnClosed
  else if c.queue.length < c.cap then .ok ({ c with queue := c.queue ++ [x] }, true)
  else .ok (c, false)

/-- `x, ok := <-c`; the value is `none` if the channel is closed and empty. -/
def recv (c : Chan α) : Option (Option α × Chan α) :=
  match c.queue with
  | x :: rest => some (some x, { c with queue := rest })
  | [] => if c.closed then some (none, c) else none

theorem close_of_open {c : Chan α} (hopen : c.closed = false) :
    c.close = .ok { c with closed := true } := by
  rw [close, hopen]
  rfl

/-- Sending on an open channel does not panic; what is sent comes last. -/
theorem send_of_open {c : Chan α} (hopen : c.closed = false) {x : α} {r : Except Panic (Chan α)}
    (h : c.send x = some r) : r = .ok { c with queue := c.queue ++ [x] } := by
  have hsend : ¬ c.closed = true := by rw [hopen]; nofun
  rw [send, if_neg hsend] at h
  split at h
  · cases h
    rfl
  · cases h

/-- A channel takes no more than it has places for. -/
theorem send_fits {c c' : Chan α} {x : α} (h : c.send x = some (.ok c')) :
    c'.cap = c.cap ∧ c'.queue.length ≤ c.cap := by
  unfold send at h
  split at h
  · cases h
  · split at h
    · next hroom =>
      cases h
      refine ⟨rfl, ?_⟩
      rw [List.length_append, List.length_singleton]
      exact hroom
    · cases h

theorem trySend_of_open {c : Chan α} (hopen : c.closed = false) (x : α) :
    c.trySend x = .ok ({ c with queue := c.queue ++ [x] }, true) ∨
      c.trySend x = .ok (c, false) := by
  have hsend : ¬ c.closed = true := by rw [hopen]; nofun
  rw [trySend, if_neg hsend]
  split
  · exact .inl rfl
  · exact .inr rfl

/-- Values arrive in the order in which they were sent, and a channel reports its end only when
    it is closed and empty. -/
theorem recv_cases {c : Chan α} {r : Option α × Chan α} (h : c.recv = some r) :
    (∃ x rest, c.queue = x :: rest ∧ r = (some x, { c with queue := rest })) ∨
      (c.queue = [] ∧ c.closed = true ∧ r = (none, c)) := by
  unfold recv at h
  split at h
  · next x rest hqueue =>
    cases h
    exact .inl ⟨x, rest, hqueue, rfl⟩
  · next hqueue =>
    split at h
    · next hclosed =>
      cases h
      exact .inr ⟨hqueue, hclosed, rfl⟩
    · cases h

end Chan

end Go
