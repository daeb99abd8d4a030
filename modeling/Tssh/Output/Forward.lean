import Tssh.Framework.System
import Tssh.Output.Cache

/-! # `forwardOutput` as a Transition System

    The goroutines of `forwardOutput` meet in a channel with one place, a mutex
    and the client checker:

    * the **reader** reads program output and handles each buffer under the mutex
      (`handleBuffer`), at the end of the output flushes what is left
      (`handleError`), and returns;
    * a **callback** of a reconnected client flushes the cache under the mutex;
    * the **writer** takes from the channel;
    * timeouts, reconnections and changes of `keepPendingOutput` come at any time.

    The mutex holder's place in the code is a `Pc`.  One step of it ends with the
    next look at something others may change: the channel, the timeout flag or
    `keepPendingOutput`.  A callback may run late, when another timeout has begun,
    so its step is possible whenever the mutex is free.

    Writes to the stream do not fail and the checker is not closed here.
-/

open Go

namespace Output

/-! ## States -/

/-- Who calls `flushOutput`. -/
inductive Caller where
  | handleBuffer
  | onReconnected
  | handleError
  deriving DecidableEq, Repr

/-- Where the holder of the mutex is. -/
inductive Pc where
  /-- nobody holds the mutex -/
  | free
  /-- `handleBuffer`: `isTimeout()` of the first condition -/
  | handle (buf : Bytes)
  /-- `handleBuffer`: `isKeepPendingOutput()` of the first condition -/
  | handleKeep (buf : Bytes)
  /-- `handleBuffer`: `isTimeout()` before the buffer is sent -/
  | direct (buf : Bytes)
  /-- `handleBuffer`: `isKeepPendingOutput()` before the buffer is sent -/
  | directKeep (buf : Bytes)
  /-- `handleBuffer`: the send; `counted` says that this read has raised `noNewLineCount` -/
  | send (buf remaining : Bytes) (counted : Bool)
  /-- `handleBuffer`: `isTimeout()` with the channel full -/
  | full (buf remaining : Bytes) (counted : Bool)
  /-- `handleBuffer`: `isKeepPendingOutput()` with the channel full -/
  | fullKeep (buf remaining : Bytes) (counted : Bool)
  /-- `handleBuffer`: `waitUntilReconnected()` -/
  | waitReconnected (buf remaining : Bytes) (counted : Bool)
  /-- `handleBuffer`: the receive that empties the channel -/
  | drain (buf remaining : Bytes) (counted : Bool)
  /-- `handleBuffer`: the send of what was received and the buffer behind it -/
  | resend (received buf remaining : Bytes)
  /-- `flushOutput`: the first `isTimeout()` -/
  | flush (caller : Caller)
  /-- `flushOutput`: the send of round `i - 1`; round `-1` is the warning -/
  | flushAt (caller : Caller) (i : Nat)
  /-- `flushOutput`: `isTimeout()` of round `i - 1` with the channel full -/
  | flushFull (caller : Caller) (i : Nat)
  /-- `handleError`: the head of the loop -/
  | lastFlush
  /-- `handleError`: `waitUntilReconnected()` -/
  | lastWait
  deriving DecidableEq, Repr

/-- Where the reader is when it does not hold the mutex. -/
inductive Reader where
  /-- in `reader.Read` -/
  | waiting
  /-- before the lock of `handleBuffer` -/
  | read (buf : Bytes)
  /-- holding the mutex -/
  | busy
  /-- before the lock of `handleError` -/
  | failed
  /-- before the lock of the deferred function -/
  | closing
  | returned
  deriving DecidableEq, Repr

/-- The variables of `forwardOutput`, what it sees of the client, and the history of the
    output: what was read, what the writer took, the lines `flushOutput` has passed, the
    counts its warnings gave, and how many reads without a newline have been handed over in
    a row since the timeout began. -/
structure State where
  ch : Option Bytes
  cache : Cache
  chHasNewLine : Bool
  noNewLineCount : Nat
  timeout : Bool
  keepPendingOutput : Bool
  reader : Reader
  pc : Pc
  input : Bytes
  taken : Bytes
  flushed : List Bytes
  reported : List (Nat × Nat)
  quietReads : Nat
  deriving DecidableEq, Repr

def State.start : State where
  ch := none
  cache := .empty
  chHasNewLine := false
  noNewLineCount := 0
  timeout := false
  keepPendingOutput := false
  reader := .waiting
  pc := .free
  input := []
  taken := []
  flushed := []
  reported := []
  quietReads := 0

namespace State

/-! ## Steps of the mutex holder -/

def goto (s : State) (pc : Pc) : State := { s with pc := pc }

def cacheBuf (cfg : Config) (s : State) (buf : Bytes) : State :=
  { s with cache := cacheOutput cfg s.cache buf }

def setLines (s : State) (cacheLines : List Bytes) : State :=
  { s with cache := { s.cache with cacheLines := cacheLines } }

/-- The end of `flushOutput` or `handleBuffer`. -/
def leave (s : State) : Caller → State
  | .handleBuffer => { s with pc := .free, reader := .waiting }
  | .onReconnected => { s with pc := .free }
  | .handleError => { s with pc := .lastFlush }

/-- Hand `buf` to the empty channel. -/
def handOver (s : State) (buf : Bytes) : State :=
  { s with
    ch := some buf
    quietReads := if newline ∈ buf then 0 else s.quietReads + 1 }

/-- The end of `handleBuffer` after a send: cache what remains. -/
def finish (cfg : Config) (s : State) (remaining : Bytes) : State :=
  (if remaining = [] then s else s.cacheBuf cfg remaining).leave .handleBuffer

/-- `handleBuffer` behind its first condition. -/
def handleRest (cfg : Config) (s : State) (buf : Bytes) : State :=
  if s.cache.cacheLines = [] then s.goto (.direct buf)
  else (s.cacheBuf cfg buf).goto (.flush .handleBuffer)

/-- `handleBuffer` for a timed out client whose output is not kept pending. -/
def cutBuffer (cfg : Config) (s : State) (buf : Bytes) : State :=
  match buf.idxOf? newline with
  | some pos =>
    { s with
      chHasNewLine := true
      pc := .send (cutAt buf pos).1 (cutAt buf pos).2 false }
  | none =>
    -- a progress bar may never end its line, so the fourth such read is cached
    if s.noNewLineCount < 3 then
      { s with noNewLineCount := s.noNewLineCount + 1, pc := .send buf [] true }
    else ({ s with chHasNewLine := true }.cacheBuf cfg buf).leave .handleBuffer

/-- `handleBuffer` after the channel was emptied: send up to the first newline. -/
def resendBuffer (cfg : Config) (s : State) (buf remaining : Bytes) : State :=
  match buf.idxOf? newline with
  | none =>
    -- counts a read that `cutBuffer` has counted once more
    if s.noNewLineCount < 3 then
      { s.handOver buf with noNewLineCount := s.noNewLineCount + 1 }.finish cfg remaining
    else { s.handOver buf with chHasNewLine := true }.finish cfg remaining
  | some pos =>
    let left := (cutAt buf pos).2
    let sent := { s.handOver (cutAt buf pos).1 with chHasNewLine := true }
    (if left = [] then sent else sent.cacheBuf cfg left).finish cfg remaining

/-- The warning of `flushOutput`. -/
def warn (s : State) : State :=
  { s with
    ch := some (warningLine s.cache.discardLines s.cache.discardBytes s.cache.tmuxOutputPrefix
      (warningEnd s.cache.cacheLines))
    cache := { s.cache with discardLines := 0, discardBytes := 0 }
    reported := s.reported ++ [(s.cache.discardLines, s.cache.discardBytes)] }

/-- The end of the loop of `flushOutput`. -/
def flushedAll (s : State) : State :=
  { s.setLines [] with chHasNewLine := false, noNewLineCount := 0 }

/-- Round `i - 1` of the loop of `flushOutput`. -/
def flushRound (s : State) (caller : Caller) : Nat → State
  | 0 =>
    if s.cache.discardLines = 0 then s.goto (.flushAt caller 1)
    else
      -- the counters are only reset when the warning has been sent
      match s.ch with
      | none => s.warn.goto (.flushAt caller 1)
      | some _ => s.goto (.flushFull caller 0)
  | i + 1 =>
    match s.cache.cacheLines[i]? with
    | none => s.flushedAll.leave caller
    | some line =>
      -- a line of nothing but requests is passed without a send
      if filterLine line = [] then
        { s with flushed := s.flushed ++ [line], pc := .flushAt caller (i + 2) }
      else
        match s.ch with
        | none =>
          { s with
            ch := some (filterLine line)
            flushed := s.flushed ++ [line]
            pc := .flushAt caller (i + 2) }
        | some _ => s.goto (.flushFull caller (i + 1))

/-- The next step of the mutex holder, if it does not wait. -/
def advance (cfg : Config) (s : State) : Option State :=
  match s.pc with
  | .free => none
  | .handle buf =>
    some (if s.chHasNewLine ∧ s.timeout then s.goto (.handleKeep buf) else s.handleRest cfg buf)
  | .handleKeep buf =>
    some (if s.keepPendingOutput then s.handleRest cfg buf
      else (s.cacheBuf cfg buf).leave .handleBuffer)
  | .direct buf => some (s.goto (if s.timeout then .directKeep buf else .send buf [] false))
  | .directKeep buf =>
    some (if s.keepPendingOutput then s.goto (.send buf [] false) else s.cutBuffer cfg buf)
  | .send buf remaining counted =>
    match s.ch with
    | none => some ((s.handOver buf).finish cfg remaining)
    | some _ => some (s.goto (.full buf remaining counted))
  | .full buf remaining counted =>
    some (s.goto (if s.timeout then .fullKeep buf remaining counted else .send buf remaining counted))
  | .fullKeep buf remaining counted =>
    some (s.goto (if s.keepPendingOutput then .waitReconnected buf remaining counted
      else .drain buf remaining counted))
  | .waitReconnected buf remaining counted =>
    if s.timeout then none else some (s.goto (.send buf remaining counted))
  | .drain buf remaining _ =>
    -- the writer may have emptied the channel in the meantime
    some { s with ch := none, pc := .resend (s.ch.getD []) buf remaining }
  | .resend received buf remaining =>
    -- a send that would wait; only the mutex holder sends, so it never does
    match s.ch with
    | none => some (s.resendBuffer cfg (received ++ buf) remaining)
    | some _ => none
  | .flush caller =>
    some (if s.cache.cacheLines = [] ∨ s.timeout then s.leave caller
      else s.goto (.flushAt caller 0))
  | .flushAt caller i => some (s.flushRound caller i)
  | .flushFull caller i =>
    -- the lines before the current one have been sent and leave the cache
    some (if s.timeout then (s.setLines (s.cache.cacheLines.drop (i - 1))).leave caller
      else s.goto (.flushAt caller i))
  | .lastFlush =>
    some (if s.cache.cacheLines = [] then { s with pc := .free, reader := .closing }
      else s.goto (if s.timeout then .lastWait else .flush .handleError))
  | .lastWait => if s.timeout then none else some (s.goto (.flush .handleError))

end State

/-! ## The system -/

inductive Label where
  | read (buf : Bytes)
  | eof
  | lock
  | callback
  | advance
  | take
  | timeout
  | reconnect
  | keepPending (keep : Bool)
  deriving DecidableEq, Repr

/-- The reader gets the mutex. -/
def State.lock (s : State) : Option State :=
  match s.reader with
  | .read buf => some { s with reader := .busy, pc := .handle buf }
  | .failed => some { s with reader := .busy, pc := .lastFlush }
  | .closing => some { s with reader := .returned }
  | _ => none

def next (cfg : Config) (s : State) : Label → Option State
  | .read buf =>
    if s.reader = .waiting ∧ buf ≠ [] then
      some { s with reader := .read buf, input := s.input ++ buf }
    else none
  | .eof => if s.reader = .waiting then some { s with reader := .failed } else none
  | .lock => if s.pc = .free then s.lock else none
  | .callback =>
    -- after `forwardOutput` has returned its channel is closed
    if s.pc = .free then
      some (if s.reader = .returned then s else s.goto (.flush .onReconnected))
    else none
  | .advance => s.advance cfg
  | .take => s.ch.map (fun buf => { s with ch := none, taken := s.taken ++ buf })
  | .timeout => if s.timeout then none else some { s with timeout := true, quietReads := 0 }
  | .reconnect => if s.timeout then some { s with timeout := false } else none
  | .keepPending keep => some { s with keepPendingOutput := keep }

/-- All runs of `forwardOutput`. -/
def forwardOutput (cfg : Config) : LTS.System State Label := .ofStep .start (next cfg)

theorem forwardOutput_reachable {cfg : Config} {s : State} {ls : List Label}
    (h : LTS.runLabels (next cfg) .start ls = some s) : (forwardOutput cfg).Reachable s :=
  .of_runLabels (fun _ _ _ hnext => hnext) (.init rfl) h

/-- A cache of one line. -/
def oneLineCache : Config := ⟨1, 0, by decide⟩

end Output
