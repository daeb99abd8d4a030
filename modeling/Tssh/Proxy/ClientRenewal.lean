import Tssh.Framework.System
import Tssh.Proxy.Server

/-! # Renewing the Client's UDP Path

    `renewUdpPath` (`tsshd/proxy_client.go`) opens a connection to the server, starts a
    goroutine that reads from it, and sends authentication packets until the goroutine reports
    on the channel `done`, a packet cannot be sent, or the connect deadline passes.

    * `isAuthSuccessful_iff`: the datagrams that the goroutine accepts are the packets that the
      server sealed with the client's current serial number.
    * `renewUdpPath_result`: what the function returns, in the runs in which the goroutine does
      not stop for another reason before the function returned.

    The goroutine closes `done` on its way out, and a receive from a closed channel gives nil.
    So a goroutine that leaves its loop at the deadline looks to the function like one that was
    answered.  And an error that arrives over `done` is returned with the connection open.
-/

open Go LTS

namespace Proxy

/-! ## The answer of the server -/

/-- The client proxy: the cipher block of the proxy key, the identities of the two sides, and
    the serial number of the path. -/
structure ClientProxy (Key : Type) where
  gcm : Aead Key
  cipherBlock : Key
  serverID : UInt64
  clientID : UInt64
  serialNumber : UInt64

namespace ClientProxy

variable {Key : Type} (p : ClientProxy Key)

/-- The server proxy with the same key and identities. -/
def server : ServerProxy Key where
  gcm := p.gcm
  cipherBlock := p.cipherBlock
  attachable := false
  serverID := p.serverID
  clientID := p.clientID

/-- The client with another serial number. -/
def withSerial (serialNumber : UInt64) : ClientProxy Key :=
  { p with serialNumber := serialNumber }

/-- `isAuthSuccessful`: a larger serial number is taken over and not accepted. -/
def isAuthSuccessful (buf : Bytes) : Bool × ClientProxy Key :=
  match p.server.aesDecrypt buf with
  | none => (false, p)
  | some data =>
    if data.length ≠ 16 then (false, p)
    else if uint64 (data.take 8) ≠ p.serverID then (false, p)
    else if uint64 (data.drop 8) > p.serialNumber then
      (false, p.withSerial (uint64 (data.drop 8)))
    else (p.serialNumber = uint64 (data.drop 8), p)

/-- The check changes nothing but the serial number. -/
theorem snd_isAuthSuccessful (buf : Bytes) :
    ∃ serial, (p.isAuthSuccessful buf).2 = p.withSerial serial := by
  unfold isAuthSuccessful
  split
  · exact ⟨p.serialNumber, rfl⟩
  · next data _ =>
    split
    · exact ⟨p.serialNumber, rfl⟩
    · split
      · exact ⟨p.serialNumber, rfl⟩
      · split
        · exact ⟨uint64 (data.drop 8), rfl⟩
        · exact ⟨p.serialNumber, rfl⟩

/-- **The client accepts exactly the server's packets with its current serial number.** -/
theorem isAuthSuccessful_iff (buf : Bytes) :
    (p.isAuthSuccessful buf).1 = true ↔
      ∃ nonce, nonce.length = p.gcm.nonceSize ∧
        buf = p.server.sealAuthPacket nonce p.serialNumber := by
  constructor
  · intro h
    unfold isAuthSuccessful at h
    split at h
    · cases h
    · next data hdata =>
      obtain ⟨nonce, hnonce, rfl⟩ := ServerProxy.aesDecrypt_some hdata
      split at h
      · cases h
      · next hlen =>
        have hlen : data.length = 16 := by omega
        split at h
        · cases h
        · next hid =>
          split at h
          · cases h
          · have hserial : p.serialNumber = uint64 (data.drop 8) := of_decide_eq_true h
            have hid : p.server.serverID = uint64 (data.take 8) := (not_not.mp hid).symm
            refine ⟨nonce, hnonce, ?_⟩
            rw [ServerProxy.sealAuthPacket, hid, hserial, putUint64_pair hlen]
  · intro ⟨nonce, hnonce, hbuf⟩
    have hdata : p.server.aesDecrypt buf
        = some (putUint64 p.serverID ++ putUint64 p.serialNumber) := by
      rw [hbuf]
      exact ServerProxy.aesDecrypt_aesEncrypt hnonce _
    unfold isAuthSuccessful
    rw [hdata]
    dsimp only
    rw [if_neg (by simp), uint64_take_pair, uint64_drop_pair, if_neg (by simp), if_neg (by simp)]
    simp

end ClientProxy

/-! ## The function and its reader goroutine -/

namespace Renewal

/-- What the goroutine sends on `done`: nil or an error. -/
inductive Report where
  | success
  | readFailed
  deriving DecidableEq, Repr

/-- Where the goroutine is: at the head of its loop, in `conn.Read`, with a datagram to check,
    sending on `done`, at the deferred `close(done)`. -/
inductive Reader where
  | notStarted
  | loop
  | read
  | auth (buf : Bytes)
  | send (report : Report)
  | close
  | ended
  deriving DecidableEq, Repr

/-- What the function returns: a nil error, or an error by the place it comes from. -/
inductive Result where
  | ok
  | dialFailed
  | sendFailed
  | readFailed
  | timeout
  deriving DecidableEq, Repr

/-- Where the function is: opening the connection, at the first authentication packet, at the
    `select`, or returned. -/
inductive Main where
  | dial
  | sendFirst
  | select
  | returned (result : Result)
  deriving DecidableEq, Repr

def Main.isReturned : Main → Bool
  | .returned _ => true
  | _ => false

inductive Conn where
  | absent
  | opened
  | closed
  deriving DecidableEq, Repr

/-- A call of `renewUdpPath`.  `done` is the buffer of the channel, `expired` is whether
    `ctx.Err()` is non-nil, and `checked` records the datagrams that were read from the
    connection and checked, each with the proxy at that time. -/
structure State (Key : Type) where
  proxy : ClientProxy Key
  main : Main
  conn : Conn
  expired : Bool
  reader : Reader
  done : Option Report
  doneClosed : Bool
  checked : List (ClientProxy Key × Bytes)

variable {Key : Type}

def start (P : ClientProxy Key) : State Key where
  proxy := P
  main := .dial
  conn := .absent
  expired := false
  reader := .notStarted
  done := none
  doneClosed := false
  checked := []

/-- Return, with the deferred `cancel()`. -/
def State.ret (s : State Key) (result : Result) : State Key :=
  { s with main := .returned result, expired := true }

/-- `conn.Close()` and return. -/
def State.closeAndRet (s : State Key) (result : Result) : State Key :=
  { s.ret result with conn := .closed }

/-- `sendAuthPacket`, with where the function goes on. -/
def State.sendAuthPacket (s : State Key) (ok : Bool) : State Key :=
  if ok then { s with main := .select } else s.closeAndRet .sendFailed

/-- The error that a receive from `done` gives: nil when the channel is closed and empty. -/
def received : Option Report → Result
  | some .success => .ok
  | some .readFailed => .readFailed
  | none => .ok

/-- The goroutine checks a datagram. -/
def State.check (s : State Key) (buf : Bytes) : State Key :=
  { s with
    proxy := (s.proxy.isAuthSuccessful buf).2
    reader := if (s.proxy.isAuthSuccessful buf).1 then .send .success else .loop
    checked := s.checked ++ [(s.proxy, buf)] }

inductive Label where
  | dial (ok : Bool)
  | sendFirst (ok : Bool)
  /-- The `select` receives from `done`. -/
  | done
  /-- The `select` receives from `ticker.C`. -/
  | tick (ok : Bool)
  /-- The `select` receives from `ctx.Done()`. -/
  | timeout
  /-- The deadline passes. -/
  | expire
  /-- The goroutine tests the condition of its loop. -/
  | loop
  | datagram (buf : Bytes)
  | readFails
  | check
  | send
  | closeDone
  /-- The goroutine of an earlier call checks a datagram that it still holds. -/
  | earlier (buf : Bytes)
  deriving DecidableEq, Repr

def next (s : State Key) : Label → Option (State Key)
  | .dial ok =>
    enabledIf (s.main = .dial)
      (if ok then { s with conn := .opened, reader := .loop, main := .sendFirst }
       else s.ret .dialFailed)
  | .sendFirst ok => enabledIf (s.main = .sendFirst) (s.sendAuthPacket ok)
  | .done =>
    -- `return conn, err`: the connection is not closed, whatever the error
    enabledIf (s.main = .select ∧ (s.done ≠ none ∨ s.doneClosed = true))
      { s.ret (received s.done) with done := none }
  | .tick ok => enabledIf (s.main = .select) (s.sendAuthPacket ok)
  | .timeout => enabledIf (s.main = .select ∧ s.expired = true) (s.closeAndRet .timeout)
  | .expire => enabledIf (s.main ≠ .dial) { s with expired := true }
  | .loop =>
    -- `for ctx.Err() == nil`; the other way out of the loop sends nothing
    enabledIf (s.reader = .loop) { s with reader := if s.expired then .close else .read }
  | .datagram buf =>
    enabledIf (s.reader = .read ∧ s.conn = .opened) { s with reader := .auth buf }
  | .readFails => enabledIf (s.reader = .read) { s with reader := .send .readFailed }
  | .check =>
    match s.reader with
    | .auth buf => some (s.check buf)
    | _ => none
  | .send =>
    match s.reader with
    -- the channel has room for the one report
    | .send report => some { s with done := some report, reader := .close }
    | _ => none
  | .closeDone =>
    enabledIf (s.reader = .close) { s with doneClosed := true, reader := .ended }
  | .earlier buf => some { s with proxy := (s.proxy.isAuthSuccessful buf).2 }

/-- A call of `renewUdpPath` of the client `P`. -/
def renewUdpPath (P : ClientProxy Key) : System (State Key) Label := .ofStep (start P) next

/-! ## The condition -/

/-- As long as the function has not returned, no read fails, and the goroutine does not find
    the deadline passed when it comes back to the head of its loop. -/
def KeepsReading (s : State Key) : Label → Prop
  | .loop => s.main.isReturned = false → s.expired = false
  | .readFails => s.main.isReturned = true
  | _ => True

instance (s : State Key) (l : Label) : Decidable (KeepsReading s l) := by
  unfold KeepsReading
  split <;> infer_instance

/-! ## Invariant -/

variable {P : ClientProxy Key} {s s' : State Key}

/-- A datagram from the connection was accepted. -/
def Accepted (P : ClientProxy Key) (s : State Key) : Prop :=
  ∃ serial buf, (P.withSerial serial, buf) ∈ s.checked ∧
    ((P.withSerial serial).isAuthSuccessful buf).1 = true

/-- The goroutine has left its loop. -/
def Reader.stopped : Reader → Bool
  | .send _ => true
  | .close => true
  | .ended => true
  | _ => false

/-- Until the function returns, the goroutine reports nothing but an accepted datagram. -/
structure Reports (P : ClientProxy Key) (s : State Key) : Prop where
  reader : s.reader ≠ .send .readFailed
  done : s.done ≠ some .readFailed
  accepted : s.reader.stopped = true ∨ s.done ≠ none ∨ s.doneClosed = true → Accepted P s

structure Inv (P : ClientProxy Key) (s : State Key) : Prop where
  proxy : ∃ serial, s.proxy = P.withSerial serial
  reports : s.main.isReturned = false → Reports P s
  dial : s.main = .dial → s.conn ≠ .opened
  ok : s.main = .returned .ok → Accepted P s
  closed : ∀ result, s.main = .returned result → result ≠ .ok → s.conn ≠ .opened

theorem start_inv (P : ClientProxy Key) : Inv P (start P) where
  proxy := ⟨P.serialNumber, rfl⟩
  reports := fun _ =>
    { reader := by simp [start]
      done := by simp [start]
      accepted := fun h => by simp [start, Reader.stopped] at h }
  dial := fun _ => by simp [start]
  ok := fun h => by cases h
  closed := fun _ h => by cases h

theorem Accepted.mono (h : Accepted P s) (hchecked : ∀ x ∈ s.checked, x ∈ s'.checked) :
    Accepted P s' := by
  obtain ⟨serial, buf, hmem, hacc⟩ := h
  exact ⟨serial, buf, hchecked _ hmem, hacc⟩

section

variable (h : Inv P s)
include h

/-- A check leaves the proxy as it is but for its serial number. -/
theorem Inv.proxy_check (buf : Bytes) :
    ∃ serial, (s.proxy.isAuthSuccessful buf).2 = P.withSerial serial := by
  obtain ⟨serial, hproxy⟩ := h.proxy
  obtain ⟨serial', hcheck⟩ := s.proxy.snd_isAuthSuccessful buf
  exact ⟨serial', by rw [hcheck, hproxy]; rfl⟩

/-! ### Steps of the function -/

/-- The function returns. -/
theorem Inv.ret {result : Result} (hok : result = .ok → Accepted P s)
    (hclosed : result ≠ .ok → s.conn ≠ .opened) : Inv P (s.ret result) where
  proxy := h.proxy
  reports := fun hmain => by cases hmain
  dial := fun hmain => by cases hmain
  ok := fun hmain => hok (Main.returned.inj hmain)
  closed := by
    intro r hmain hr
    cases hmain
    exact hclosed hr

/-- The function closes the connection and returns an error. -/
theorem Inv.closeAndRet {result : Result} (hr : result ≠ .ok) : Inv P (s.closeAndRet result) where
  proxy := h.proxy
  reports := fun hmain => by cases hmain
  dial := fun hmain => by cases hmain
  ok := fun hmain => absurd (Main.returned.inj hmain) hr
  closed := fun _ _ _ => by simp [State.closeAndRet]

theorem Inv.sendAuthPacket (hmain : s.main.isReturned = false) (ok : Bool) :
    Inv P (s.sendAuthPacket ok) := by
  cases ok with
  | false => exact h.closeAndRet (by decide)
  | true =>
    have hreports := h.reports hmain
    exact
      { proxy := h.proxy
        reports := fun _ => ⟨hreports.reader, hreports.done, hreports.accepted⟩
        dial := fun hm => by cases hm
        ok := fun hm => by cases hm
        closed := fun _ hm => by cases hm }

/-- The connection is open and the goroutine at the head of its loop. -/
theorem Inv.dialled (hmain : s.main = .dial) :
    Inv P { s with conn := .opened, reader := .loop, main := .sendFirst } := by
  have hreports := h.reports (by rw [hmain]; rfl)
  refine ⟨h.proxy, fun _ => ⟨by simp, hreports.done, ?_⟩, ?_, ?_, ?_⟩
  · intro hstopped
    exact hreports.accepted (hstopped.imp_left fun hloop => by cases hloop)
  · intro hm
    cases hm
  · intro hm
    cases hm
  · intro _ hm
    cases hm

/-- What arrives over `done` is nil, and then a datagram was accepted. -/
theorem Inv.receive (hmain : s.main = .select) (hready : s.done ≠ none ∨ s.doneClosed = true) :
    Inv P { s.ret (received s.done) with done := none } := by
  have hreports := h.reports (by rw [hmain]; rfl)
  -- The goroutine has reported or stopped; before the return it does so only when answered.
  have haccepted : Accepted P s := hreports.accepted (.inr hready)
  have hok : received s.done = .ok := by
    cases hdone : s.done with
    | none => rfl
    | some report =>
      cases report with
      | success => rfl
      | readFailed => exact absurd hdone hreports.done
  rw [hok]
  have hret : Inv P (s.ret .ok) := h.ret (fun _ => haccepted) (fun hne => absurd rfl hne)
  exact ⟨hret.proxy, fun hm => (by cases hm), hret.dial, hret.ok, hret.closed⟩

/-! ### Steps of the goroutine -/

/-- A step of the goroutine or of the environment: the function and the connection stay. -/
theorem Inv.background (hproxy : ∃ serial, s'.proxy = P.withSerial serial)
    (hmain : s'.main = s.main) (hconn : s'.conn = s.conn)
    (hchecked : ∀ x ∈ s.checked, x ∈ s'.checked)
    (hreports : s.main.isReturned = false → Reports P s → Reports P s') : Inv P s' where
  proxy := hproxy
  reports := by
    rw [hmain]
    exact fun hm => hreports hm (h.reports hm)
  dial := by
    rw [hmain, hconn]
    exact h.dial
  ok := by
    rw [hmain]
    exact fun hm => (h.ok hm).mono hchecked
  closed := by
    rw [hmain, hconn]
    exact h.closed

/-- The goroutine moves on inside its loop. -/
theorem Inv.setReader {r : Reader} (hr : s.main.isReturned = false → r.stopped = false) :
    Inv P { s with reader := r } := by
  refine h.background h.proxy rfl rfl (fun _ hx => hx) ?_
  intro hmain hreports
  have hstopped := hr hmain
  refine ⟨?_, hreports.done, ?_⟩
  · show r ≠ .send .readFailed
    intro heq
    rw [heq] at hstopped
    cases hstopped
  · rintro (hstop | hdone)
    · have hstop : r.stopped = true := hstop
      rw [hstopped] at hstop
      cases hstop
    · exact hreports.accepted (.inr hdone)

theorem Inv.check (buf : Bytes) : Inv P (s.check buf) := by
  refine h.background (h.proxy_check buf) rfl rfl (fun _ hx => List.mem_append_left _ hx) ?_
  intro _ hreports
  obtain ⟨serial, hproxy⟩ := h.proxy
  -- The datagram is recorded with the proxy as it was before the check.
  have hlast : (P.withSerial serial, buf) ∈ (s.check buf).checked := by
    rw [← hproxy]
    exact List.mem_append_right _ (List.mem_singleton_self _)
  cases hauth : (s.proxy.isAuthSuccessful buf).1 with
  | true =>
    have hreader : (s.check buf).reader = .send .success := by simp [State.check, hauth]
    refine ⟨by rw [hreader]; decide, hreports.done, fun _ => ?_⟩
    exact ⟨serial, buf, hlast, by rw [← hproxy]; exact hauth⟩
  | false =>
    have hreader : (s.check buf).reader = .loop := by simp [State.check, hauth]
    refine ⟨by rw [hreader]; decide, hreports.done, ?_⟩
    rw [hreader]
    rintro (hstop | hdone)
    · cases hstop
    · exact (hreports.accepted (.inr hdone)).mono fun _ hx => List.mem_append_left _ hx

/-- What the goroutine is sending arrives in the buffer. -/
theorem Inv.send {report : Report} (hreader : s.reader = .send report) :
    Inv P { s with done := some report, reader := .close } := by
  refine h.background h.proxy rfl rfl (fun _ hx => hx) ?_
  intro _ hreports
  refine ⟨by simp, ?_, fun _ => hreports.accepted (.inl (by rw [hreader]; rfl))⟩
  intro hdone
  rw [Option.some.inj hdone] at hreader
  exact hreports.reader hreader

theorem Inv.closeDone (hreader : s.reader = .close) :
    Inv P { s with doneClosed := true, reader := .ended } := by
  refine h.background h.proxy rfl rfl (fun _ hx => hx) ?_
  intro _ hreports
  exact ⟨by simp, hreports.done, fun _ => hreports.accepted (.inl (by rw [hreader]; rfl))⟩

/-! ### Every step -/

theorem Inv.step {l : Label} (hok : KeepsReading s l) (hnext : next s l = some s') : Inv P s' := by
  cases l with
  | dial ok =>
    obtain ⟨hmain, rfl⟩ := enabledIf_eq_some hnext
    cases ok with
    | true => exact h.dialled hmain
    | false => exact h.ret (fun hr => by cases hr) (fun _ => h.dial hmain)
  | sendFirst ok | tick ok =>
    obtain ⟨hmain, rfl⟩ := enabledIf_eq_some hnext
    exact h.sendAuthPacket (by rw [hmain]; rfl) ok
  | done =>
    obtain ⟨⟨hmain, hready⟩, rfl⟩ := enabledIf_eq_some hnext
    exact h.receive hmain hready
  | timeout =>
    obtain ⟨_, rfl⟩ := enabledIf_eq_some hnext
    exact h.closeAndRet (by decide)
  | expire =>
    obtain ⟨_, rfl⟩ := enabledIf_eq_some hnext
    refine h.background h.proxy rfl rfl (fun _ hx => hx) ?_
    exact fun _ hreports => ⟨hreports.reader, hreports.done, hreports.accepted⟩
  | loop =>
    obtain ⟨_, rfl⟩ := enabledIf_eq_some hnext
    refine h.setReader ?_
    intro hmain
    -- The deadline is the only way out of the loop here, and it has not passed.
    have hexpired : s.expired = false := hok hmain
    rw [hexpired]
    rfl
  | datagram buf =>
    obtain ⟨_, rfl⟩ := enabledIf_eq_some hnext
    exact h.setReader fun _ => rfl
  | readFails =>
    obtain ⟨_, rfl⟩ := enabledIf_eq_some hnext
    refine h.setReader ?_
    intro hmain
    have hreturned : s.main.isReturned = true := hok
    rw [hmain] at hreturned
    cases hreturned
  | check =>
    simp only [next] at hnext
    split at hnext
    · next buf _ =>
      obtain rfl := Option.some.inj hnext
      exact h.check buf
    · cases hnext
  | send =>
    simp only [next] at hnext
    split at hnext
    · next report hreader =>
      obtain rfl := Option.some.inj hnext
      exact h.send hreader
    · cases hnext
  | closeDone =>
    obtain ⟨hreader, rfl⟩ := enabledIf_eq_some hnext
    exact h.closeDone hreader
  | earlier buf =>
    obtain rfl := Option.some.inj hnext
    refine h.background (h.proxy_check buf) rfl rfl (fun _ hx => hx) ?_
    exact fun _ hreports => ⟨hreports.reader, hreports.done, hreports.accepted⟩

end

theorem renewUdpPath_inv (hs : ((renewUdpPath P).restrict KeepsReading).Reachable s) :
    Inv P s :=
  System.invariant_restrict (start_inv P) (fun _ _ _ h => h.step) hs

/-- **What `renewUdpPath` returns.**  In every run in which the goroutine keeps reading until the
    function returns: a nil error means that a datagram from the connection was accepted by
    `isAuthSuccessful`, one that the server sealed with the serial number that the client had
    at that moment, and an error means that the connection is not open. -/
theorem renewUdpPath_result (P : ClientProxy Key) {s : State Key}
    (hs : ((renewUdpPath P).restrict KeepsReading).Reachable s) :
    (s.main = .returned .ok → ∃ serial buf, (P.withSerial serial, buf) ∈ s.checked ∧
      ((P.withSerial serial).isAuthSuccessful buf).1 = true ∧
      ∃ nonce, nonce.length = P.gcm.nonceSize ∧ buf = P.server.sealAuthPacket nonce serial) ∧
    ∀ result, s.main = .returned result → result ≠ .ok → s.conn ≠ .opened := by
  have hinv := renewUdpPath_inv hs
  refine ⟨?_, hinv.closed⟩
  intro hmain
  obtain ⟨serial, buf, hmem, hacc⟩ := hinv.ok hmain
  exact ⟨serial, buf, hmem, hacc, ((P.withSerial serial).isAuthSuccessful_iff buf).mp hacc⟩

/-! ### Runs of a small client -/

/-- The client of `xorProxy`, at serial number `2`. -/
def clientAtTwo : ClientProxy UInt8 :=
  { gcm := Aead.xorCipher, cipherBlock := 5, serverID := 9, clientID := 7, serialNumber := 2 }

/-- The server's answer to serial number `serial`. -/
def answerTo (serial : UInt64) : Bytes := (xorProxy false).sealAuthPacket zeroNonce serial

/-- An answer to an older path is dropped, the next one is accepted. -/
def answered : List Label :=
  [Label.dial true, Label.loop, Label.sendFirst true, Label.datagram (answerTo 1), Label.check,
   Label.tick true, Label.loop, Label.datagram (answerTo 2), Label.check, Label.send,
   Label.done]

/-- The deadline passes while the goroutine waits in `conn.Read`. -/
def unanswered : List Label :=
  [Label.dial true, Label.sendFirst true, Label.loop, Label.tick true, Label.expire,
   Label.timeout, Label.readFails, Label.send, Label.closeDone]

theorem renewUdpPath_result_runs :
    (∃ s, ((renewUdpPath clientAtTwo).restrict KeepsReading).Reachable s ∧
      s.main = .returned .ok ∧ ∃ serial buf, (clientAtTwo.withSerial serial, buf) ∈ s.checked ∧
        ((clientAtTwo.withSerial serial).isAuthSuccessful buf).1 = true) ∧
    ∃ s, ((renewUdpPath clientAtTwo).restrict KeepsReading).Reachable s ∧
      s.main = .returned .timeout ∧ s.conn ≠ .opened := by
  obtain ⟨s, hrun, hmain⟩ : ∃ s, runLabels (fun s l => if KeepsReading s l then next s l else none)
      (start clientAtTwo) answered = some s ∧ s.main = .returned .ok :=
    exists_of_runLabels (by decide +kernel)
  obtain ⟨t, htrun, htmain⟩ : ∃ t,
      runLabels (fun s l => if KeepsReading s l then next s l else none)
        (start clientAtTwo) unanswered = some t ∧ t.main = .returned .timeout :=
    exists_of_runLabels (by decide +kernel)
  have hs := System.Reachable.of_runLabels_restrict hrun
  have ht := System.Reachable.of_runLabels_restrict htrun
  obtain ⟨serial, buf, hmem, hacc, _⟩ := (renewUdpPath_result clientAtTwo hs).1 hmain
  refine ⟨⟨s, hs, hmain, serial, buf, hmem, hacc⟩, t, ht, htmain, ?_⟩
  exact (renewUdpPath_result clientAtTwo ht).2 .timeout htmain (by decide)

/-- The deadline passes while the goroutine drops an answer to an older path. -/
def stoppedAtDeadline : List Label :=
  [Label.dial true, Label.sendFirst true, Label.loop, Label.datagram (answerTo 1),
   Label.expire, Label.check, Label.loop, Label.closeDone, Label.done]

/-- The read fails: over a connected UDP socket, when the server's port is not reachable. -/
def refused : List Label :=
  [Label.dial true, Label.sendFirst true, Label.loop, Label.readFails, Label.send, Label.done]

/-- A nil error without an accepted datagram, and an error with the connection open. -/
theorem renewUdpPath_stopped_reader :
    (∃ s, (renewUdpPath clientAtTwo).Reachable s ∧ s.main = .returned .ok ∧
      ∀ x ∈ s.checked, (x.1.isAuthSuccessful x.2).1 = false) ∧
    ∃ s, (renewUdpPath clientAtTwo).Reachable s ∧ s.main = .returned .readFailed ∧
      s.conn = .opened := by
  obtain ⟨s, hrun, h⟩ : ∃ s, runLabels next (start clientAtTwo) stoppedAtDeadline = some s ∧
      s.main = .returned .ok ∧ ∀ x ∈ s.checked, (x.1.isAuthSuccessful x.2).1 = false :=
    exists_of_runLabels (by decide +kernel)
  obtain ⟨t, htrun, ht⟩ : ∃ t, runLabels next (start clientAtTwo) refused = some t ∧
      t.main = .returned .readFailed ∧ t.conn = .opened :=
    exists_of_runLabels (by decide +kernel)
  exact ⟨⟨s, .of_runLabels (fun _ _ _ h => h) (.init rfl) hrun, h⟩,
    t, .of_runLabels (fun _ _ _ h => h) (.init rfl) htrun, ht⟩

end Renewal

end Proxy
