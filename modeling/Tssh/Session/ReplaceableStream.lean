import Tssh.Framework.System
import Mathlib.Logic.Function.Basic

/-! # A Call on a Replaceable Stream

    `replaceableStream` (`tsshd/attach.go`) lets a session keep one stream while clients come
    and go: `swap` puts another stream under it, or none, and closes the one it replaces.  A
    `Read` or `Write` goes through `do`, which takes the current stream under the mutex, runs
    the operation on it without the mutex, and tries again if the stream was replaced meanwhile.
    The count `n` of the call is one variable for all its tries.

    The streams are `interruptibleStream`s: a write is handed to a goroutine of the stream and
    given up when the stream is closed.

    One call is run against any number of `swap`s and a `Close`, with every critical section,
    channel operation and underlying read or write as one step.  If a try has read bytes and
    `Close` comes before they are returned, the call returns those bytes with the end of file,
    from a stream that is gone.  In all other runs the bytes are those of the stream that was
    there at the last check (`call_returns_from_current`).
-/

open LTS

namespace Replaceable

abbrev Bytes := List UInt8

/-! ## State -/

/-- What a read or write returns: a count and an error. -/
structure IoResult where
  n : Nat
  err : Option String
  deriving DecidableEq, Repr

/-- The goroutine of an `interruptibleStream`. -/
inductive Worker where
  | idle
  | writing
  | acking (r : IoResult)
  | ended
  deriving DecidableEq, Repr

/-- `interruptibleStream`.  `asked` is whether somebody is calling `Close`, `ackCh` is the
    buffer of the channel, and `written` what the stream under it has taken. -/
structure Inner where
  asked : Bool
  closed : Bool
  closeCh : Bool
  worker : Worker
  ackCh : Option IoResult
  written : Bytes
  deriving DecidableEq, Repr

/-- `newInterruptibleStream`. -/
def Inner.new : Inner where
  asked := false
  closed := false
  closeCh := false
  worker := .idle
  ackCh := none
  written := []

inductive Op where
  | read
  | write
  deriving DecidableEq, Repr

/-- Where the call is: at the top of the loop of `do`, in the operation on `cur`, at the check
    after it, or back. -/
inductive Pc where
  | top
  | read (cur : Nat)
  | writeTest (cur : Nat)
  | writeSend (cur : Nat)
  | writeAck (cur : Nat)
  | check (cur : Nat) (err : Option String)
  | returned (err : Option String)
  deriving DecidableEq, Repr

/-- The replaceable stream, with `made` streams put under it so far, and the call.  `buf` is the
    buffer of the call and `n` its count.  Two fields are history: `attempt` is the stream of
    the last read that came back and what it delivered, and `lastCheck` the stream that was
    current when the call last held the mutex. -/
structure State where
  stream : Option Nat
  closed : Bool
  made : Nat
  inner : Nat → Inner
  op : Op
  buf : Bytes
  pc : Pc
  n : Nat
  attempt : Option (Nat × Bytes)
  lastCheck : Option Nat

/-- `newReplaceableStream`, and a call of `op` with `buf`. -/
def start (op : Op) (buf : Bytes) : State where
  stream := some 0
  closed := false
  made := 1
  inner := fun _ => .new
  op := op
  buf := buf
  pc := .top
  n := 0
  attempt := none
  lastCheck := none

def State.setInner (s : State) (x : Nat) (st : Inner) : State :=
  { s with inner := Function.update s.inner x st }

theorem State.setInner_self (s : State) (x : Nat) (st : Inner) :
    (s.setInner x st).inner x = st :=
  Function.update_self ..

theorem State.setInner_of_ne (s : State) {x y : Nat} (hy : y ≠ x) (st : Inner) :
    (s.setInner x st).inner y = s.inner y :=
  Function.update_of_ne hy ..

/-! ## Steps -/

def eof : String := "EOF"

def streamClosed : String := "stream closed"

/-- `oldStream.Close()` is about to be called. -/
def State.ask (s : State) : Option Nat → State
  | none => s
  | some x => s.setInner x { s.inner x with asked := true }

/-- `swap`; the new stream gets the next number. -/
def swap (s : State) (new : Bool) : State :=
  -- closed for good: only the new stream is closed, which is nothing to the call
  if s.closed then s
  else
    let oldStream := s.stream
    { s with
      stream := if new then some s.made else none
      made := if new then s.made + 1 else s.made }.ask oldStream

def close (s : State) : State :=
  if s.closed then s else { s with closed := true, stream := none }.ask s.stream

/-- The call comes back from the operation on `cur`. -/
def State.done (s : State) (cur : Nat) (r : IoResult) : State :=
  { s with pc := .check cur r.err, n := r.n }

/-- The operation of the call on `cur`. -/
def enter (op : Op) (cur : Nat) : Pc :=
  match op with
  | .read => .read cur
  | .write => .writeTest cur

/-- The top of the loop: wait for a stream, give up where there will be none, or take it. -/
def topStep (s : State) : Option State :=
  if s.closed then
    some { s with pc := .returned (some eof), lastCheck := s.stream }
  else
    match s.stream with
    | none => none
    | some cur => some { s with pc := enter s.op cur, lastCheck := some cur }

/-- The check after the operation. -/
def checkStep (s : State) (cur : Nat) (err : Option String) : State :=
  { s with
    pc := if s.stream ≠ some cur then .top else .returned err
    lastCheck := s.stream }

/-- `swap` and `Close` of the replaceable stream; the two halves of `Close` of a stream; the
    call; the read that comes back with `bs`; the goroutine of a stream and its write. -/
inductive Label where
  | swap (new : Bool)
  | close
  | closeFlag (x : Nat)
  | closeChan (x : Nat)
  | top
  | readDone (bs : Bytes) (err : Option String)
  | writeTest
  | writeSend
  | writeAck
  | interrupted
  | check
  | workerDone (x : Nat) (r : IoResult)
  | workerAck (x : Nat)
  | workerEnd (x : Nat)
  deriving DecidableEq, Repr

/-- What a write of `len` bytes may return: fewer bytes only with an error. -/
def Contract (len : Nat) (r : IoResult) : Prop := r.n ≤ len ∧ (r.err = none → r.n = len)

instance (len : Nat) (r : IoResult) : Decidable (Contract len r) := by
  unfold Contract
  infer_instance

def next (s : State) : Label → Option State
  | .swap new => some (swap s new)
  | .close => some (close s)
  | .closeFlag x =>
    enabledIf ((s.inner x).asked = true ∧ (s.inner x).closed = false)
      (s.setInner x { s.inner x with closed := true })
  | .closeChan x =>
    enabledIf ((s.inner x).closed = true ∧ (s.inner x).closeCh = false)
      (s.setInner x { s.inner x with closeCh := true })
  | .top => if s.pc = .top then topStep s else none
  | .readDone bs err =>
    match s.pc with
    | .read cur =>
      -- the bytes are in the buffer of the caller before the stream is checked
      enabledIf (bs.length ≤ s.buf.length)
        { s.done cur ⟨bs.length, err⟩ with
          buf := bs ++ s.buf.drop bs.length
          attempt := some (cur, bs) }
    | _ => none
  | .writeTest =>
    match s.pc with
    | .writeTest cur =>
      some (if (s.inner cur).closed then s.done cur ⟨0, some streamClosed⟩
        else { s with pc := .writeSend cur })
    | _ => none
  | .writeSend =>
    match s.pc with
    | .writeSend cur =>
      -- the channel has no places: the send needs the goroutine of the stream
      enabledIf ((s.inner cur).worker = .idle)
        { s.setInner cur { s.inner cur with worker := .writing } with pc := .writeAck cur }
    | _ => none
  | .writeAck =>
    match s.pc with
    | .writeAck cur =>
      match (s.inner cur).ackCh with
      | none => none
      | some r => some ((s.setInner cur { s.inner cur with ackCh := none }).done cur r)
    | _ => none
  | .interrupted =>
    match s.pc with
    | .writeSend cur =>
      enabledIf ((s.inner cur).closeCh = true) (s.done cur ⟨0, some streamClosed⟩)
    | .writeAck cur =>
      enabledIf ((s.inner cur).closeCh = true) (s.done cur ⟨0, some streamClosed⟩)
    | _ => none
  | .check =>
    match s.pc with
    | .check cur err => some (checkStep s cur err)
    | _ => none
  | .workerDone x r =>
    enabledIf ((s.inner x).worker = .writing ∧ Contract s.buf.length r)
      (s.setInner x { s.inner x with
        worker := .acking r
        written := (s.inner x).written ++ s.buf.take r.n })
  | .workerAck x =>
    match (s.inner x).worker with
    | .acking r =>
      enabledIf ((s.inner x).ackCh = none)
        (s.setInner x { s.inner x with worker := .idle, ackCh := some r })
    | _ => none
  | .workerEnd x =>
    enabledIf ((s.inner x).worker = .idle ∧ (s.inner x).closeCh = true)
      (s.setInner x { s.inner x with worker := .ended })

/-- One call, against any swaps and a `Close`. -/
def callRuns (op : Op) (buf : Bytes) : System State Label := .ofStep (start op buf) next

/-- What the last read of a stream that came back has delivered. -/
def State.delivered (s : State) : Bytes := (s.attempt.map (·.2)).getD []

/-- The call is before a try, or before the check after one. -/
def Pc.between : Pc → Bool
  | .top | .check _ _ => true
  | _ => false

/-- A condition on what happens around the call: `Close` does not come when a read of a stream
    has delivered bytes that the call has not returned, and a read that is under way when it
    comes delivers none. -/
def ClosesQuietly (s : State) (l : Label) : Prop :=
  match l with
  | .close => s.op = .read → s.pc.between = true → s.delivered = []
  | .readDone bs _ => s.closed = true → bs = []
  | _ => True

instance (s : State) (l : Label) : Decidable (ClosesQuietly s l) := by
  unfold ClosesQuietly
  split <;> infer_instance

/-! ## What a step does -/

/-- Every step, with the guard it met. -/
inductive Moves (s : State) : Label → State → Prop where
  | swap (new : Bool) : Moves s (.swap new) (swap s new)
  | close : Moves s .close (close s)
  | closeFlag (x : Nat) :
      Moves s (.closeFlag x) (s.setInner x { s.inner x with closed := true })
  | closeChan (x : Nat) :
      Moves s (.closeChan x) (s.setInner x { s.inner x with closeCh := true })
  | top {s' : State} (hpc : s.pc = .top) (h : topStep s = some s') : Moves s .top s'
  | readDone (cur : Nat) (bs : Bytes) (err : Option String) (hpc : s.pc = .read cur) :
      Moves s (.readDone bs err) { s.done cur ⟨bs.length, err⟩ with
        buf := bs ++ s.buf.drop bs.length
        attempt := some (cur, bs) }
  | writeTest (cur : Nat) (hpc : s.pc = .writeTest cur) :
      Moves s .writeTest (if (s.inner cur).closed then s.done cur ⟨0, some streamClosed⟩
        else { s with pc := .writeSend cur })
  | writeSend (cur : Nat) (hpc : s.pc = .writeSend cur) :
      Moves s .writeSend
        { s.setInner cur { s.inner cur with worker := .writing } with pc := .writeAck cur }
  | writeAck (cur : Nat) (r : IoResult) (hpc : s.pc = .writeAck cur)
      (hack : (s.inner cur).ackCh = some r) :
      Moves s .writeAck ((s.setInner cur { s.inner cur with ackCh := none }).done cur r)
  | interrupted (cur : Nat) (hpc : s.pc = .writeSend cur ∨ s.pc = .writeAck cur) :
      Moves s .interrupted (s.done cur ⟨0, some streamClosed⟩)
  | check (cur : Nat) (err : Option String) (hpc : s.pc = .check cur err) :
      Moves s .check (checkStep s cur err)
  | workerDone (x : Nat) (r : IoResult) (hworker : (s.inner x).worker = .writing)
      (hr : Contract s.buf.length r) :
      Moves s (.workerDone x r) (s.setInner x { s.inner x with
        worker := .acking r
        written := (s.inner x).written ++ s.buf.take r.n })
  | workerAck (x : Nat) (r : IoResult) (hworker : (s.inner x).worker = .acking r) :
      Moves s (.workerAck x) (s.setInner x { s.inner x with worker := .idle, ackCh := some r })
  | workerEnd (x : Nat) (hworker : (s.inner x).worker = .idle) :
      Moves s (.workerEnd x) (s.setInner x { s.inner x with worker := .ended })

variable {s s' : State} {l : Label} {buf : Bytes} {st : Inner} {r : IoResult} {cur : Nat}

theorem next_moves (h : next s l = some s') : Moves s l s' := by
  cases l with
  | swap new =>
    cases h
    exact .swap new
  | close =>
    cases h
    exact .close
  | closeFlag x =>
    obtain ⟨-, rfl⟩ := enabledIf_eq_some h
    exact .closeFlag x
  | closeChan x =>
    obtain ⟨-, rfl⟩ := enabledIf_eq_some h
    exact .closeChan x
  | top =>
    obtain ⟨hpc, h⟩ := Option.ite_none_right_eq_some.mp h
    exact .top hpc h
  | readDone bs err =>
    simp only [next] at h
    split at h
    · next cur hpc =>
      obtain ⟨-, rfl⟩ := enabledIf_eq_some h
      exact .readDone cur bs err hpc
    · cases h
  | writeTest =>
    simp only [next] at h
    split at h
    · next cur hpc =>
      cases h
      exact .writeTest cur hpc
    · cases h
  | writeSend =>
    simp only [next] at h
    split at h
    · next cur hpc =>
      obtain ⟨-, rfl⟩ := enabledIf_eq_some h
      exact .writeSend cur hpc
    · cases h
  | writeAck =>
    simp only [next] at h
    split at h
    · next cur hpc =>
      split at h
      · cases h
      · next r hack =>
        cases h
        exact .writeAck cur r hpc hack
    · cases h
  | interrupted =>
    simp only [next] at h
    split at h
    · next cur hpc =>
      obtain ⟨-, rfl⟩ := enabledIf_eq_some h
      exact .interrupted cur (.inl hpc)
    · next cur hpc =>
      obtain ⟨-, rfl⟩ := enabledIf_eq_some h
      exact .interrupted cur (.inr hpc)
    · cases h
  | check =>
    simp only [next] at h
    split at h
    · next cur err hpc =>
      cases h
      exact .check cur err hpc
    · cases h
  | workerDone x r =>
    obtain ⟨⟨hworker, hr⟩, rfl⟩ := enabledIf_eq_some h
    exact .workerDone x r hworker hr
  | workerAck x =>
    simp only [next] at h
    split at h
    · next r hworker =>
      obtain ⟨-, rfl⟩ := enabledIf_eq_some h
      exact .workerAck x r hworker
    · cases h
  | workerEnd x =>
    obtain ⟨⟨hworker, -⟩, rfl⟩ := enabledIf_eq_some h
    exact .workerEnd x hworker

/-! ## The life of a stream in the call -/

def Settled (w : Worker) : Prop := w = .idle ∨ w = .ended

/-- The call has not written to the stream. -/
structure Untouched (st : Inner) : Prop where
  worker : Settled st.worker
  ackCh : st.ackCh = none
  written : st.written = []

/-- The stream has taken what the result says. -/
structure Took (buf : Bytes) (r : IoResult) (st : Inner) : Prop where
  written : st.written = buf.take r.n
  contract : Contract buf.length r

/-- The buffer is with the goroutine, or its result is on the way back. -/
inductive Busy (buf : Bytes) (st : Inner) : Prop where
  | writing (hworker : st.worker = .writing) (hack : st.ackCh = none) (hwritten : st.written = [])
  | acking (r : IoResult) (hworker : st.worker = .acking r) (hack : st.ackCh = none)
      (htook : Took buf r st)
  | acked (r : IoResult) (hworker : Settled st.worker) (hack : st.ackCh = some r)
      (htook : Took buf r st)

/-- The call has the result. -/
structure Answered (buf : Bytes) (r : IoResult) (st : Inner) : Prop where
  worker : Settled st.worker
  ackCh : st.ackCh = none
  took : Took buf r st

/-- A step of a stream that keeps where it is in the call. -/
structure Keeps (buf : Bytes) (st st' : Inner) : Prop where
  untouched : Untouched st → Untouched st'
  busy : Busy buf st → Busy buf st'
  answered : ∀ r, Answered buf r st → Answered buf r st'

theorem Keeps.refl (buf : Bytes) (st : Inner) : Keeps buf st st := ⟨id, id, fun _ => id⟩

/-- Closing does not matter for where a stream is in the call. -/
theorem keeps_of_same {st st' : Inner} (hworker : st'.worker = st.worker)
    (hack : st'.ackCh = st.ackCh) (hwritten : st'.written = st.written) : Keeps buf st st' := by
  have htook : ∀ r, Took buf r st → Took buf r st' :=
    fun r h => ⟨hwritten.trans h.written, h.contract⟩
  refine ⟨?_, ?_, ?_⟩
  · intro h
    exact ⟨by rw [hworker]; exact h.worker, hack.trans h.ackCh, hwritten.trans h.written⟩
  · intro h
    cases h with
    | writing hw ha hn => exact .writing (hworker.trans hw) (hack.trans ha) (hwritten.trans hn)
    | acking r hw ha ht => exact .acking r (hworker.trans hw) (hack.trans ha) (htook r ht)
    | acked r hw ha ht => exact .acked r (by rw [hworker]; exact hw) (hack.trans ha) (htook r ht)
  · intro r h
    exact ⟨by rw [hworker]; exact h.worker, hack.trans h.ackCh, htook r h.took⟩

theorem not_settled_writing : ¬ Settled .writing := by
  rintro (h | h)
  · cases h
  · cases h

theorem not_settled_acking (r : IoResult) : ¬ Settled (.acking r) := by
  rintro (h | h)
  · cases h
  · cases h

/-- The write of the goroutine comes back. -/
theorem keeps_workerDone (hw : st.worker = .writing) (hr : Contract buf.length r) :
    Keeps buf st { st with worker := .acking r, written := st.written ++ buf.take r.n } := by
  refine ⟨?_, ?_, ?_⟩
  · intro h
    exact absurd (hw ▸ h.worker) not_settled_writing
  · intro h
    cases h with
    | writing _ hack hwritten =>
      refine .acking r rfl hack ⟨?_, hr⟩
      rw [hwritten]
      rfl
    | acking r' hworker _ _ =>
      rw [hw] at hworker
      cases hworker
    | acked r' hworker _ _ => exact absurd (hw ▸ hworker) not_settled_writing
  · intro r' h
    exact absurd (hw ▸ h.worker) not_settled_writing

/-- The goroutine sends the result. -/
theorem keeps_workerAck (hw : st.worker = .acking r) :
    Keeps buf st { st with worker := .idle, ackCh := some r } := by
  refine ⟨?_, ?_, ?_⟩
  · intro h
    exact absurd (hw ▸ h.worker) (not_settled_acking r)
  · intro h
    cases h with
    | writing hworker _ _ =>
      rw [hw] at hworker
      cases hworker
    | acking r' hworker _ htook =>
      rw [hw] at hworker
      cases hworker
      exact .acked r (.inl rfl) rfl ⟨htook.written, htook.contract⟩
    | acked r' hworker _ _ => exact absurd (hw ▸ hworker) (not_settled_acking r)
  · intro r' h
    exact absurd (hw ▸ h.worker) (not_settled_acking r)

theorem keeps_workerEnd (hw : st.worker = .idle) : Keeps buf st { st with worker := .ended } := by
  refine ⟨?_, ?_, ?_⟩
  · intro h
    exact ⟨.inr rfl, h.ackCh, h.written⟩
  · intro h
    cases h with
    | writing hworker _ _ | acking r hworker _ _ =>
      rw [hw] at hworker
      cases hworker
    | acked r _ hack htook => exact .acked r (.inr rfl) hack ⟨htook.written, htook.contract⟩
  · intro r h
    exact ⟨.inr rfl, h.ackCh, ⟨h.took.written, h.took.contract⟩⟩

/-! ## The invariant -/

/-- The stream of the try. -/
def Pc.on : Pc → Option Nat
  | .read cur => some cur
  | .writeTest cur => some cur
  | .writeSend cur => some cur
  | .writeAck cur => some cur
  | .check cur _ => some cur
  | _ => none

def Pc.back : Pc → Bool
  | .returned _ => true
  | _ => false

/-- The stream that the buffer is about to be written to. -/
def Pc.sendsTo : Pc → Option Nat
  | .writeTest cur => some cur
  | .writeSend cur => some cur
  | _ => none

theorem Pc.on_of_sendsTo {pc : Pc} (h : pc.sendsTo = some cur) : pc.on = some cur := by
  cases pc with
  | writeTest x | writeSend x => exact h
  | _ => cases h

/-- The operation that a program point belongs to. -/
def Pc.op : Pc → Option Op
  | .read _ => some .read
  | .writeTest _ => some .write
  | .writeSend _ => some .write
  | .writeAck _ => some .write
  | _ => none

/-- The stream has taken the count of the call, and that is all of the buffer. -/
def Wrote (s : State) (x : Nat) : Prop :=
  ∃ r, Answered s.buf r (s.inner x) ∧ r.err = none ∧ s.n = r.n

/-- Every stream is tried at most once: the streams still to come have not been touched. -/
structure Inv (s : State) : Prop where
  made : ∀ x, s.stream = some x → x < s.made
  on : ∀ x, s.pc.on = some x → x < s.made
  op : ∀ op, s.pc.op = some op → s.op = op
  fresh : ∀ x, s.made ≤ x → Untouched (s.inner x)
  current : ∀ x, s.stream = some x → s.pc.on ≠ some x → s.pc.back = false →
    Untouched (s.inner x)
  sending : ∀ x, s.pc.sendsTo = some x → Untouched (s.inner x)
  life : ∀ x, Untouched (s.inner x) ∨
    (s.op = .write ∧ (Busy s.buf (s.inner x) ∨ ∃ r, Answered s.buf r (s.inner x)))
  check : s.op = .write → ∀ x, s.pc = .check x none → Wrote s x
  back : s.op = .write → s.pc = .returned none → ∃ x, s.lastCheck = some x ∧ Wrote s x

/-- A step of one stream. -/
theorem Inv.setInner (hinv : Inv s) {x : Nat} (hkeeps : Keeps s.buf (s.inner x) st) :
    Inv (s.setInner x st) := by
  have hall : ∀ y, Keeps s.buf (s.inner y) ((s.setInner x st).inner y) := by
    intro y
    by_cases hy : y = x
    · subst hy
      rw [State.setInner_self]
      exact hkeeps
    · rw [State.setInner_of_ne _ hy]
      exact Keeps.refl _ _
  have hwrote : ∀ y, Wrote s y → Wrote (s.setInner x st) y := by
    rintro y ⟨r, hr, herr, hn⟩
    exact ⟨r, (hall y).answered r hr, herr, hn⟩
  refine ⟨hinv.made, hinv.on, hinv.op, ?_, ?_, ?_, ?_, ?_, ?_⟩
  · intro y hy
    exact (hall y).untouched (hinv.fresh y hy)
  · intro y hy hon hback
    exact (hall y).untouched (hinv.current y hy hon hback)
  · intro y hy
    exact (hall y).untouched (hinv.sending y hy)
  · intro y
    rcases hinv.life y with h | ⟨hop, h | ⟨r, h⟩⟩
    · exact .inl ((hall y).untouched h)
    · exact .inr ⟨hop, .inl ((hall y).busy h)⟩
    · exact .inr ⟨hop, .inr ⟨r, (hall y).answered r h⟩⟩
  · intro hop y hpc
    exact hwrote y (hinv.check hop y hpc)
  · intro hop hpc
    obtain ⟨y, hlast, hy⟩ := hinv.back hop hpc
    exact ⟨y, hlast, hwrote y hy⟩

theorem Inv.ask (hinv : Inv s) (old : Option Nat) : Inv (s.ask old) := by
  cases old with
  | none => exact hinv
  | some x => exact hinv.setInner (keeps_of_same rfl rfl rfl)

theorem Inv.swap (hinv : Inv s) (new : Bool) : Inv (swap s new) := by
  unfold Replaceable.swap
  split
  · exact hinv
  · apply Inv.ask
    cases new with
    | false =>
      exact ⟨nofun, hinv.on, hinv.op, hinv.fresh, nofun, hinv.sending, hinv.life, hinv.check,
        hinv.back⟩
    | true =>
      refine ⟨?_, ?_, hinv.op, ?_, ?_, hinv.sending, hinv.life, hinv.check, hinv.back⟩
      · intro x hx
        cases hx
        exact Nat.lt_succ_self _
      · intro x hx
        exact Nat.lt_succ_of_lt (hinv.on x hx)
      · intro x hx
        exact hinv.fresh x (Nat.le_of_succ_le hx)
      · -- the new stream has a new number
        intro x hx _ _
        cases hx
        exact hinv.fresh _ (Nat.le_refl _)

theorem Inv.close (hinv : Inv s) : Inv (close s) := by
  unfold Replaceable.close
  split
  · exact hinv
  · apply Inv.ask
    exact ⟨nofun, hinv.on, hinv.op, hinv.fresh, nofun, hinv.sending, hinv.life, hinv.check,
      hinv.back⟩

/-! ### The steps of the call -/

theorem enter_on (op : Op) (cur : Nat) : (enter op cur).on = some cur := by
  cases op with
  | read => rfl
  | write => rfl

theorem enter_op (op : Op) (cur : Nat) : (enter op cur).op = some op := by
  cases op with
  | read => rfl
  | write => rfl

section

variable (hinv : Inv s)
include hinv

theorem Inv.topStep (hpc : s.pc = .top) (h : topStep s = some s') : Inv s' := by
  unfold Replaceable.topStep at h
  split at h
  · cases h
    -- the call has returned with an error, and is at no stream
    exact ⟨hinv.made, nofun, nofun, hinv.fresh, nofun, nofun, hinv.life, nofun, nofun⟩
  · split at h
    · cases h
    · next cur hcur =>
      cases h
      have huntouched : Untouched (s.inner cur) :=
        hinv.current cur hcur (by rw [hpc]; exact (Option.some_ne_none cur).symm) (by rw [hpc]; rfl)
      refine ⟨hinv.made, ?_, ?_, hinv.fresh, ?_, ?_, hinv.life, ?_, ?_⟩
      · intro x hx
        rw [enter_on] at hx
        cases hx
        exact hinv.made cur hcur
      · intro op hop
        rw [enter_op] at hop
        cases hop
        rfl
      · intro x hx hon _
        rw [enter_on] at hon
        exact absurd (hcur.symm.trans hx) hon
      · intro x hx
        have hon := Pc.on_of_sendsTo hx
        rw [enter_on] at hon
        cases hon
        exact huntouched
      · intro _ x hx
        have h := (congrArg Pc.op hx).symm
        rw [enter_op] at h
        cases h
      · intro _ hx
        have h := (congrArg Pc.op hx).symm
        rw [enter_op] at h
        cases h

/-- The call comes back from the operation on `cur`. -/
theorem Inv.done (hon : s.pc.on = some cur)
    (hcheck : s.op = .write → r.err = none → Wrote { s with n := r.n } cur) :
    Inv (s.done cur r) := by
  refine ⟨hinv.made, ?_, nofun, hinv.fresh, ?_, nofun, hinv.life, ?_, nofun⟩
  · intro x hx
    cases hx
    exact hinv.on cur hon
  · intro x hx hne _
    -- where the call is does not change: it is still at the stream it tried
    apply hinv.current x hx
    · rw [hon]
      exact hne
    · cases hpc : s.pc with
      | returned err =>
        rw [hpc] at hon
        cases hon
      | _ => rfl
  · intro hop x hx
    injection hx with hx herr
    subst hx
    exact hcheck hop herr

theorem Inv.readDone (hpc : s.pc = .read cur) (bs : Bytes) (err : Option String) :
    Inv { s.done cur ⟨bs.length, err⟩ with
      buf := bs ++ s.buf.drop bs.length
      attempt := some (cur, bs) } := by
  have hop : s.op = .read := hinv.op .read (by rw [hpc]; rfl)
  have hdone : Inv (s.done cur ⟨bs.length, err⟩) := by
    apply hinv.done (by rw [hpc]; rfl)
    rw [hop]
    nofun
  refine ⟨hdone.made, hdone.on, hdone.op, hdone.fresh, hdone.current, hdone.sending, ?_, ?_,
    nofun⟩
  · intro x
    rcases hinv.life x with h | ⟨hwrite, -⟩
    · exact .inl h
    · rw [hop] at hwrite
      cases hwrite
  · intro hwrite
    have hwrite : s.op = .write := hwrite
    rw [hop] at hwrite
    cases hwrite

/-- The stream of the try moves on while the call waits for its result. -/
theorem Inv.touch (hon : s.pc.on = some cur) (hop : s.op = .write) (hback : s.pc.back = false)
    (hst : Busy s.buf st ∨ ∃ r, Answered s.buf r st) :
    Inv { s.setInner cur st with pc := .writeAck cur } := by
  have hmade : cur < s.made := hinv.on cur hon
  refine ⟨hinv.made, ?_, ?_, ?_, ?_, ?_, ?_, ?_, ?_⟩
  · intro x hx
    cases hx
    exact hmade
  · intro op h
    cases h
    exact hop
  · intro x hx
    have hne : x ≠ cur := by
      rintro rfl
      exact absurd hmade (Nat.not_lt.mpr hx)
    show Untouched ((s.setInner cur st).inner x)
    rw [State.setInner_of_ne _ hne]
    exact hinv.fresh x hx
  · intro x hx hother _
    have hne : x ≠ cur := by
      rintro rfl
      exact hother rfl
    show Untouched ((s.setInner cur st).inner x)
    rw [State.setInner_of_ne _ hne]
    exact hinv.current x hx (by rw [hon]; exact hother) hback
  · intro x h
    cases h
  · intro x
    show Untouched ((s.setInner cur st).inner x) ∨ (_ ∧
      (Busy s.buf ((s.setInner cur st).inner x) ∨
        ∃ r, Answered s.buf r ((s.setInner cur st).inner x)))
    by_cases hx : x = cur
    · subst hx
      rw [State.setInner_self]
      exact .inr ⟨hop, hst⟩
    · rw [State.setInner_of_ne _ hx]
      exact hinv.life x
  · intro _ x h
    cases h
  · intro _ h
    cases h

/-- The buffer is handed to the goroutine. -/
theorem Inv.writeSend (hpc : s.pc = .writeSend cur) :
    Inv { s.setInner cur { s.inner cur with worker := .writing } with pc := .writeAck cur } := by
  have huntouched := hinv.sending cur (by rw [hpc]; rfl)
  apply hinv.touch (by rw [hpc]; rfl) (hinv.op .write (by rw [hpc]; rfl)) (by rw [hpc]; rfl)
  exact .inl (.writing rfl huntouched.ackCh huntouched.written)

/-- A result in the channel is that of the buffer of the call. -/
theorem Inv.answered_of_ack {x : Nat} (hack : (s.inner x).ackCh = some r) :
    Answered s.buf r { s.inner x with ackCh := none } := by
  rcases hinv.life x with h | ⟨-, h | ⟨r', h⟩⟩
  · rw [h.ackCh] at hack
    cases hack
  · cases h with
    | writing _ hnone _ | acking _ _ hnone _ =>
      rw [hnone] at hack
      cases hack
    | acked r' hworker hsome htook =>
      rw [hsome] at hack
      cases hack
      exact ⟨hworker, rfl, ⟨htook.written, htook.contract⟩⟩
  · rw [h.ackCh] at hack
    cases hack

theorem Inv.writeAck (hpc : s.pc = .writeAck cur) (hack : (s.inner cur).ackCh = some r) :
    Inv ((s.setInner cur { s.inner cur with ackCh := none }).done cur r) := by
  have hanswered := hinv.answered_of_ack hack
  have htouch := hinv.touch (by rw [hpc]; rfl) (hinv.op .write (by rw [hpc]; rfl))
    (by rw [hpc]; rfl) (.inr ⟨r, hanswered⟩)
  refine htouch.done (r := r) rfl ?_
  intro _ herr
  refine ⟨r, ?_, herr, rfl⟩
  show Answered s.buf r ((s.setInner cur _).inner cur)
  rw [State.setInner_self]
  exact hanswered

/-- A write that is given up reports an error. -/
theorem Inv.giveUp (hon : s.pc.on = some cur) : Inv (s.done cur ⟨0, some streamClosed⟩) :=
  hinv.done hon (fun _ => nofun)

theorem Inv.checkStep {err : Option String} (hpc : s.pc = .check cur err) :
    Inv (checkStep s cur err) := by
  unfold Replaceable.checkStep
  split
  · next hswitched =>
    refine ⟨hinv.made, nofun, nofun, hinv.fresh, ?_, nofun, hinv.life, nofun, nofun⟩
    -- the stream that replaced `cur` has not been tried
    intro x hx _ _
    apply hinv.current x hx
    · rw [hpc]
      intro hcur
      cases hcur
      exact hswitched hx
    · rw [hpc]
      rfl
  · next hsame =>
    have hsame := not_not.mp hsame
    refine ⟨hinv.made, nofun, nofun, hinv.fresh, nofun, nofun, hinv.life, nofun, ?_⟩
    intro hop hret
    cases hret
    exact ⟨cur, hsame, hinv.check hop cur hpc⟩

theorem Inv.writeTest (hpc : s.pc = .writeTest cur) : Inv { s with pc := .writeSend cur } := by
  have hsending := hinv.sending
  have hcurrent := hinv.current
  have hon := hinv.on
  have hop := hinv.op
  rw [hpc] at hsending hcurrent hon hop
  exact ⟨hinv.made, hon, hop, hinv.fresh, hcurrent, hsending, hinv.life, nofun, nofun⟩

theorem Inv.next (h : next s l = some s') : Inv s' := by
  cases next_moves h with
  | swap new => exact hinv.swap new
  | close => exact hinv.close
  | closeFlag x => exact hinv.setInner (keeps_of_same rfl rfl rfl)
  | closeChan x => exact hinv.setInner (keeps_of_same rfl rfl rfl)
  | top hpc htop => exact hinv.topStep hpc htop
  | readDone cur bs err hpc => exact hinv.readDone hpc bs err
  | writeTest cur hpc =>
    split
    · exact hinv.giveUp (by rw [hpc]; rfl)
    · exact hinv.writeTest hpc
  | writeSend cur hpc => exact hinv.writeSend hpc
  | writeAck cur r hpc hack => exact hinv.writeAck hpc hack
  | interrupted cur hpc =>
    rcases hpc with hpc | hpc
    · exact hinv.giveUp (by rw [hpc]; rfl)
    · exact hinv.giveUp (by rw [hpc]; rfl)
  | check cur err hpc => exact hinv.checkStep hpc
  | workerDone x r hworker hr => exact hinv.setInner (keeps_workerDone hworker hr)
  | workerAck x r hworker => exact hinv.setInner (keeps_workerAck hworker)
  | workerEnd x hworker => exact hinv.setInner (keeps_workerEnd hworker)

end

theorem inv_of_reachable {op : Op} (hs : (callRuns op buf).Reachable s) : Inv s := by
  have hnew : Untouched .new := ⟨.inl rfl, rfl, rfl⟩
  refine System.invariant_ofStep ?_ (fun _ _ _ h => h.next) hs
  refine ⟨?_, nofun, nofun, fun _ _ => hnew, fun _ _ _ _ => hnew, fun _ _ => hnew,
    fun _ => .inl hnew, nofun, nofun⟩
  intro x hx
  cases hx
  exact Nat.zero_lt_one

/-! ## What a read returns -/

/-- The bytes of the call, if there are any, are those that the stream of the last check
    delivered. -/
def FromCurrent (s : State) : Prop :=
  s.n = 0 ∨ ∃ x, s.lastCheck = some x ∧ s.attempt = some (x, s.buf.take s.n)

/-- Between two operations the count is that of the last read, which has delivered nothing once
    the stream is closed. -/
structure ReadInv (s : State) : Prop where
  counted : s.op = .read → s.pc.between = true → s.n = s.delivered.length
  quiet : s.op = .read → s.closed = true → s.pc.between = true → s.delivered = []
  check : s.op = .read → ∀ x err, s.pc = .check x err → s.attempt = some (x, s.buf.take s.n)
  back : s.op = .read → ∀ err, s.pc = .returned err → FromCurrent s

/-- The fields of the call. -/
structure SameCall (s s' : State) : Prop where
  op : s'.op = s.op
  buf : s'.buf = s.buf
  pc : s'.pc = s.pc
  n : s'.n = s.n
  attempt : s'.attempt = s.attempt
  lastCheck : s'.lastCheck = s.lastCheck

theorem ReadInv.of_same (hread : ReadInv s) (h : SameCall s s')
    (hquiet : s.op = .read → s'.closed = true → s.pc.between = true → s.delivered = []) :
    ReadInv s' := by
  refine ⟨?_, ?_, ?_, ?_⟩
  · unfold State.delivered
    rw [h.op, h.pc, h.n, h.attempt]
    exact hread.counted
  · unfold State.delivered
    rw [h.op, h.pc, h.attempt]
    exact hquiet
  · rw [h.op, h.pc, h.attempt, h.buf, h.n]
    exact hread.check
  · unfold FromCurrent
    rw [h.op, h.pc, h.lastCheck, h.attempt, h.buf, h.n]
    exact hread.back

theorem sameCall_ask (s : State) (old : Option Nat) : SameCall s (s.ask old) := by
  cases old with
  | none => exact ⟨rfl, rfl, rfl, rfl, rfl, rfl⟩
  | some x => exact ⟨rfl, rfl, rfl, rfl, rfl, rfl⟩

theorem sameCall_swap (s : State) (new : Bool) : SameCall s (swap s new) := by
  unfold swap
  split
  · exact ⟨rfl, rfl, rfl, rfl, rfl, rfl⟩
  · obtain ⟨hop, hbuf, hpc, hn, hattempt, hlast⟩ := sameCall_ask
      { s with
        stream := if new then some s.made else none
        made := if new then s.made + 1 else s.made } s.stream
    exact ⟨hop, hbuf, hpc, hn, hattempt, hlast⟩

theorem sameCall_close (s : State) : SameCall s (close s) := by
  unfold close
  split
  · exact ⟨rfl, rfl, rfl, rfl, rfl, rfl⟩
  · obtain ⟨hop, hbuf, hpc, hn, hattempt, hlast⟩ := sameCall_ask
      { s with closed := true, stream := none } s.stream
    exact ⟨hop, hbuf, hpc, hn, hattempt, hlast⟩

theorem swap_closed (s : State) (new : Bool) : (swap s new).closed = s.closed := by
  unfold swap
  split
  · rfl
  · cases s.stream <;> rfl

/-- A step of a write says nothing about a read. -/
theorem ReadInv.of_write (hop : s.op = .write) : ReadInv s := by
  have hno : s.op ≠ .read := by
    rw [hop]
    exact Op.noConfusion
  exact ⟨fun hread => absurd hread hno, fun hread => absurd hread hno,
    fun hread => absurd hread hno, fun hread => absurd hread hno⟩

theorem ReadInv.of_not_between (h : s.pc.between = false)
    (hback : s.op = .read → ∀ err, s.pc = .returned err → FromCurrent s) : ReadInv s := by
  refine ⟨?_, ?_, ?_, hback⟩
  · intro _ hbetween
    cases h.symm.trans hbetween
  · intro _ _ hbetween
    cases h.symm.trans hbetween
  · intro _ x err hx
    rw [hx] at h
    cases h

theorem ReadInv.topStep (hread : ReadInv s) (hpc : s.pc = .top) (h : topStep s = some s') :
    ReadInv s' := by
  unfold Replaceable.topStep at h
  split at h
  · next hclosed =>
    cases h
    refine .of_not_between rfl ?_
    -- what the last try left is nothing, since the stream is closed
    intro hop _ _
    have hbetween : s.pc.between = true := by rw [hpc]; rfl
    left
    show s.n = 0
    rw [hread.counted hop hbetween, hread.quiet hop hclosed hbetween]
    rfl
  · split at h
    · cases h
    · next cur hcur =>
      cases h
      cases hop : s.op with
      | write => exact .of_write rfl
      | read =>
        exact .of_not_between rfl (fun _ _ => Pc.noConfusion)

theorem ReadInv.checkStep (hread : ReadInv s) {err : Option String} (hpc : s.pc = .check cur err) :
    ReadInv (checkStep s cur err) := by
  have hbetween : s.pc.between = true := by rw [hpc]; rfl
  unfold Replaceable.checkStep
  split
  · exact ⟨fun hop _ => hread.counted hop hbetween,
      fun hop hclosed _ => hread.quiet hop hclosed hbetween, nofun, nofun⟩
  · next hsame =>
    have hsame := not_not.mp hsame
    refine .of_not_between rfl ?_
    intro hop _ _
    exact .inr ⟨cur, hsame, hread.check hop cur err hpc⟩

/-- What a step does to the call. -/
inductive CallStep (s s' : State) (l : Label) : Prop where
  | same (h : SameCall s s') (hclosed : s'.closed = s.closed)
  | close (hl : l = .close) (h : SameCall s s')
  | top (hpc : s.pc = .top) (h : topStep s = some s')
  | read (cur : Nat) (bs : Bytes) (err : Option String) (hl : l = .readDone bs err)
      (hpc : s.pc = .read cur)
      (h : s' = { s.done cur ⟨bs.length, err⟩ with
        buf := bs ++ s.buf.drop bs.length
        attempt := some (cur, bs) })
  | write (hpc : s.pc.op = some .write) (hop : s'.op = s.op) (hbuf : s'.buf = s.buf)
  | check (cur : Nat) (err : Option String) (hpc : s.pc = .check cur err)
      (h : s' = checkStep s cur err)

theorem next_callStep (h : next s l = some s') : CallStep s s' l := by
  cases next_moves h with
  | swap new => exact .same (sameCall_swap s new) (swap_closed s new)
  | close => exact .close rfl (sameCall_close s)
  | top hpc htop => exact .top hpc htop
  | readDone cur bs err hpc => exact .read cur bs err rfl hpc rfl
  | check cur err hpc => exact .check cur err hpc rfl
  | writeTest cur hpc =>
    refine .write (by rw [hpc]; rfl) ?_ ?_
    · split <;> rfl
    · split <;> rfl
  | writeSend cur hpc => exact .write (by rw [hpc]; rfl) rfl rfl
  | writeAck cur r hpc hack => exact .write (by rw [hpc]; rfl) rfl rfl
  | interrupted cur hpc =>
    rcases hpc with hpc | hpc
    · exact .write (by rw [hpc]; rfl) rfl rfl
    · exact .write (by rw [hpc]; rfl) rfl rfl
  -- closing a stream and its goroutine do not touch the call
  | _ => exact .same ⟨rfl, rfl, rfl, rfl, rfl, rfl⟩ rfl

theorem ReadInv.next (hinv : Inv s) (hread : ReadInv s) (hok : ClosesQuietly s l)
    (hnext : next s l = some s') : ReadInv s' := by
  cases next_callStep hnext with
  | same h hclosed => exact hread.of_same h (hclosed ▸ hread.quiet)
  | close hl h =>
    rw [hl] at hok
    exact hread.of_same h fun hop _ hbetween => hok hop hbetween
  | top hpc htop => exact hread.topStep hpc htop
  | read cur bs err hl hpc h =>
    rw [hl] at hok
    subst h
    refine ⟨fun _ _ => rfl, fun _ hclosed _ => hok hclosed, ?_, nofun⟩
    intro _ x err' hx
    injection hx with hx _
    subst hx
    show some (cur, bs) = some (cur, (bs ++ s.buf.drop bs.length).take bs.length)
    rw [List.take_left]
  | write hpc hop _ => exact .of_write (hop.trans (hinv.op .write hpc))
  | check cur err hpc h =>
    subst h
    exact hread.checkStep hpc

theorem readInv_of_reachable {op : Op}
    (hs : ((callRuns op buf).restrict ClosesQuietly).Reachable s) :
    ReadInv s := by
  apply System.invariant_with _ (fun s hs => inv_of_reachable hs.of_restrict) _ _ hs
  · intro s hstart
    rw [hstart]
    exact ⟨fun _ _ => rfl, nofun, nofun, nofun⟩
  · rintro s l s' hinv hread ⟨hok, hnext⟩
    exact hread.next hinv hok hnext

/-- The operation does not change, and a write leaves its buffer alone. -/
theorem given_of_reachable {op : Op} (hs : (callRuns op buf).Reachable s) :
    s.op = op ∧ (op = .write → s.buf = buf) := by
  apply System.invariant_with _ (fun s hs => inv_of_reachable hs) _ _ hs
  · intro s hstart
    rw [hstart]
    exact ⟨rfl, fun _ => rfl⟩
  · rintro s l s' hinv ⟨hop, hbuf⟩ hnext
    cases next_callStep hnext with
    | same h _ => exact ⟨h.op.trans hop, fun hwrite => h.buf.trans (hbuf hwrite)⟩
    | close _ h => exact ⟨h.op.trans hop, fun hwrite => h.buf.trans (hbuf hwrite)⟩
    | top _ h =>
      unfold topStep at h
      split at h
      · cases h
        exact ⟨hop, hbuf⟩
      · split at h
        · cases h
        · cases h
          exact ⟨hop, hbuf⟩
    | read cur bs err _ hpc h =>
      have hread : s.op = .read := hinv.op .read (by rw [hpc]; rfl)
      subst h
      refine ⟨hop, ?_⟩
      rw [← hop, hread]
      intro hwrite
      cases hwrite
    | write _ hop' hbuf' => exact ⟨hop'.trans hop, fun hwrite => hbuf'.trans (hbuf hwrite)⟩
    | check cur err _ h =>
      subst h
      exact ⟨hop, hbuf⟩

/-! ## Results -/

/-- **What a call returns**: in the runs in which `Close` does not come between a read of a
    stream and the return of its bytes, the bytes of a read are those of the stream at the last
    check.  A write that reports success has written its whole buffer to that stream. -/
theorem call_returns_from_current (op : Op) (buf : Bytes) {s : State}
    (hs : ((callRuns op buf).restrict ClosesQuietly).Reachable s) (err : Option String)
    (hret : s.pc = .returned err) :
    (op = .read → FromCurrent s) ∧
      (op = .write → err = none →
        ∃ x, s.lastCheck = some x ∧ (s.inner x).written = buf ∧ s.n = buf.length) := by
  obtain ⟨hop, hbuf⟩ := given_of_reachable hs.of_restrict
  refine ⟨?_, ?_⟩
  · intro hread
    exact (readInv_of_reachable hs).back (hop.trans hread) err hret
  · intro hwrite herr
    subst herr
    obtain ⟨x, hlast, r, hanswered, hok, hn⟩ :=
      (inv_of_reachable hs.of_restrict).back (hop.trans hwrite) hret
    have hcount : r.n = s.buf.length := hanswered.took.contract.2 hok
    refine ⟨x, hlast, ?_, ?_⟩
    · rw [hanswered.took.written, hcount, List.take_length, hbuf hwrite]
    · rw [hn, hcount, hbuf hwrite]

/-- A try reads two bytes, its stream is detached, and the stream is closed before the next
    try. -/
def closedAfterRead : List Label :=
  [.top, .readDone [1, 2] none, .swap false, .check, .close, .top]

/-- The call returns the two bytes although there was no stream at its last check. -/
theorem closedAfterRead_returns_stale :
    ∃ s, (callRuns .read [0, 0, 0]).Reachable s ∧ s.pc = .returned (some eof) ∧ s.n = 2 ∧
      s.buf = [1, 2, 0] ∧ s.lastCheck = none := by
  obtain ⟨s, hrun, hend⟩ : ∃ s, runLabels next (start .read [0, 0, 0]) closedAfterRead = some s ∧
      s.pc = .returned (some eof) ∧ s.n = 2 ∧ s.buf = [1, 2, 0] ∧ s.lastCheck = none :=
    exists_of_runLabels (by decide +kernel)
  exact ⟨s, .of_runLabels (fun _ _ _ h => h) (.init rfl) hrun, hend⟩

/-- A write that is given up on the first stream and tried again on the second. -/
def writtenAgain : List Label :=
  [.top, .writeTest, .writeSend, .swap true, .closeFlag 0, .closeChan 0, .interrupted, .check,
   .top, .writeTest, .writeSend, .workerDone 1 ⟨2, none⟩, .workerAck 1, .writeAck, .check]

/-- A read whose first stream is replaced after it has delivered two bytes. -/
def readAgain : List Label :=
  [.top, .readDone [1, 2] none, .swap true, .check, .top, .readDone [3] none, .check, .close]

/-- The write has reached the second stream, and the read returns what that delivered. -/
theorem writtenAgain_wrote_second :
    (∃ s, ((callRuns .write [8, 9]).restrict ClosesQuietly).Reachable s ∧
      s.pc = .returned none ∧ s.lastCheck = some 1 ∧
      ∃ x, s.lastCheck = some x ∧ (s.inner x).written = [8, 9] ∧ s.n = 2) ∧
    ∃ s, ((callRuns .read [0, 0]).restrict ClosesQuietly).Reachable s ∧
      s.pc = .returned none ∧ s.n = 1 ∧ s.buf = [3, 2] ∧ FromCurrent s := by
  constructor
  · obtain ⟨s, hrun, hret, hlast⟩ :
        ∃ s, runLabels (fun s l => if ClosesQuietly s l then next s l else none)
          (start .write [8, 9]) writtenAgain = some s ∧
          s.pc = .returned none ∧ s.lastCheck = some 1 :=
      exists_of_runLabels (by decide +kernel)
    have hs := System.Reachable.of_runLabels_restrict hrun
    exact ⟨s, hs, hret, hlast, (call_returns_from_current .write [8, 9] hs none hret).2 rfl rfl⟩
  · obtain ⟨s, hrun, hret, hn, hbuf⟩ :
        ∃ s, runLabels (fun s l => if ClosesQuietly s l then next s l else none)
          (start .read [0, 0]) readAgain = some s ∧
          s.pc = .returned none ∧ s.n = 1 ∧ s.buf = [3, 2] :=
      exists_of_runLabels (by decide +kernel)
    have hs := System.Reachable.of_runLabels_restrict hrun
    exact ⟨s, hs, hret, hn, hbuf, (call_returns_from_current .read [0, 0] hs none hret).1 rfl⟩

end Replaceable
