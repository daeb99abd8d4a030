import Tssh.Rekey.Crypto

/-! # Rekey Attempts that Fail

    A rekey of the client (`tsshd/rekey.go`) is started by its ticker or by the bytes it has
    consumed.  `startRekey` sets `rekeyInFlight`; `doRekey` makes a key pair and sends the
    public key over the bus; the server answers with a public key of its own
    (`handleServerRekey`, called in `tsshd/bus.go`); the client derives the secret and installs
    the key (`handleClientRekey`).

    `installKey` resets the byte count, `bytesTriggered` and `rekeyInFlight`.  Of the ways in
    which an attempt ends without it, only a failing `doRekey` resets anything, and that only
    `rekeyInFlight`.

    * `ableToRekey_iff`: what a client needs for the next rekey by bytes.
    * `failed_attempt_leaves_able_iff`: which ends of an attempt leave it so.
-/

open Go LTS

namespace Rekey

namespace Attempts

/-! ## The client and the server of an attempt -/

/-- The elliptic curve: `PublicKey().Bytes()`, `NewPublicKey` and `ECDH`. -/
structure Curve (Pri Pub : Type) where
  publicBytes : Pri → Bytes
  newPublicKey : Bytes → Except String Pub
  ecdh : Pri → Pub → Except String Bytes

variable {Key Pri Pub : Type} (C : Curve Pri Pub) (L : CryptoLib Key)

/-- The cipher of a client. -/
structure Client (Key Pri : Type) where
  crypto : RotatingCrypto Key
  clientPriKey : Option Pri
  closed : Bool

namespace Client

/-- `time.Since(r.lastRekeyTime) < r.timeThreshold/2`; the time since the zero time is larger
    than every threshold. -/
def recentlyRekeyed (c : Client Key Pri) (now : Nat) : Bool :=
  match c.crypto.lastRekeyTime with
  | none => false
  | some t => now - t < c.crypto.timeThreshold / 2

/-- `startRekey`; the flag says whether it starts `doRekey`. -/
def startRekey (c : Client Key Pri) (now : Nat) : Client Key Pri × Bool :=
  if c.closed then (c, false)
  else if c.crypto.rekeyInFlight then (c, false)
  -- the threshold counts even shortly after a rekey
  else if c.recentlyRekeyed now ∧ c.crypto.bytesConsumed < c.crypto.bytesThreshold then (c, false)
  else ({ c with crypto := { c.crypto with rekeyInFlight := true } }, true)

/-- `consumeBytes`; the flag says whether it starts `startRekey`. -/
def consumeBytes (c : Client Key Pri) (n : UInt64) : Client Key Pri × Bool :=
  ({ c with crypto := (c.crypto.consumeBytes n).1 }, (c.crypto.consumeBytes n).2)

/-- What the goroutine of `startRekey` does when `doRekey` fails. -/
def resetInFlight (c : Client Key Pri) : Client Key Pri :=
  { c with crypto := { c.crypto with rekeyInFlight := false } }

/-- `handleClientRekey`, at time `now`. -/
def handleClientRekey (c : Client Key Pri) (now : Nat) (pubKey : Bytes) :
    Except String (Client Key Pri) := do
  let serverPubKey ← (C.newPublicKey pubKey).mapError ("new public key failed: " ++ ·)
  match c.clientPriKey with
  | none => .error "client private key is nil"
  | some clientPriKey =>
    let secret ← (C.ecdh clientPriKey serverPubKey).mapError ("ecdh failed: " ++ ·)
    let crypto ← c.crypto.installKey L now secret true
    return { c with crypto := crypto, clientPriKey := none }

end Client

/-- `handleServerRekey` up to the answer, with the result of `GenerateKey`. -/
def handleServerRekey (r : RotatingCrypto Key) (now : Nat) (generated : Except String Pri)
    (pubKey : Bytes) : Except String (Bytes × RotatingCrypto Key) := do
  let serverPriKey ← generated.mapError ("generate key failed: " ++ ·)
  let clientPubKey ← (C.newPublicKey pubKey).mapError ("new public key failed: " ++ ·)
  let secret ← (C.ecdh serverPriKey clientPubKey).mapError ("ecdh failed: " ++ ·)
  let r ← r.installKey L now secret false
  return (C.publicBytes serverPriKey, r)

/-- `handleRekeyEvent` of the server, with the message that `recvMessage` gives; `kcpCrypto` may
    be nil. -/
def handleRekeyEvent (kcpCrypto : Option (RotatingCrypto Key)) (now : Nat)
    (generated : Except String Pri) (msg : Except String Bytes) :
    Except String (Bytes × RotatingCrypto Key) := do
  let pubKey ← msg.mapError ("recv rekey message failed: " ++ ·)
  match kcpCrypto with
  | none => .error "rekey failed: crypto is nil"
  | some r => (handleServerRekey C L r now generated pubKey).mapError ("rekey failed: " ++ ·)

/-! ## The system -/

/-- How far the attempt is: making the key pair, waiting for the bus with the public key, at the
    server, or answered. -/
inductive Phase where
  | idle
  | generating
  | sending (pubKey : Bytes)
  | requested (pubKey : Bytes)
  | answered (pubKey : Bytes)
  deriving DecidableEq, Repr

/-- The client, the server's cipher, the attempt, and the number of goroutines that
    `consumeBytes` started and that have not run `startRekey` yet. -/
structure State (Key Pri : Type) where
  client : Client Key Pri
  server : Option (RotatingCrypto Key)
  phase : Phase
  starting : Nat

inductive Label (Pri : Type) where
  /-- A packet is sealed or opened. -/
  | consumeBytes (n : UInt64)
  /-- A packet is opened under a later key. -/
  | promoteKey (idx : Nat)
  /-- A goroutine of `consumeBytes` runs `startRekey`. -/
  | startRekey (now : Nat)
  /-- The ticker runs `startRekey`. -/
  | tick (now : Nat)
  /-- `GenerateKey` in `doRekey`. -/
  | generate (key : Except String Pri)
  /-- `sendBusMessage` in `doRekey`. -/
  | send (result : Except String Unit)
  /-- The server handles the request: what `recvMessage` and `GenerateKey` give it, and whether
      its `sendBusMessage` succeeds. -/
  | serve (now : Nat) (msg : Except String Unit) (key : Except String Pri)
      (result : Except String Unit)
  /-- The client handles the response: what `recvMessage` gives it. -/
  | respond (now : Nat) (msg : Except String Bytes)
  | close

/-- `startRekey` runs on the client. -/
def State.startRekey (s : State Key Pri) (now : Nat) : State Key Pri :=
  { s with
    client := (s.client.startRekey now).1
    phase := if (s.client.startRekey now).2 then .generating else s.phase }

/-- `doRekey` returns an error. -/
def State.doRekeyFails (s : State Key Pri) : State Key Pri :=
  { s with client := s.client.resetInFlight, phase := .idle }

/-- The server handles a request.  An error ends the attempt; a key that was installed stays,
    whether the answer is sent or not. -/
def State.serve (s : State Key Pri) (now : Nat) (msg : Except String Bytes)
    (key : Except String Pri) (result : Except String Unit) : State Key Pri :=
  match handleRekeyEvent C L s.server now key msg, result with
  -- only logged: nothing is sent to the client
  | .error _, _ => { s with phase := .idle }
  | .ok (_, r), .error _ => { s with server := some r, phase := .idle }
  | .ok (pubKey, r), .ok _ => { s with server := some r, phase := .answered pubKey }

/-- `handleRekeyEvent` of the client: an error is a warning. -/
def State.respond (s : State Key Pri) (now : Nat) (msg : Except String Bytes) : State Key Pri :=
  match msg.bind (s.client.handleClientRekey C L now) with
  | .error _ => { s with phase := .idle }
  | .ok client => { s with client := client, phase := .idle }

def next (s : State Key Pri) : Label Pri → Option (State Key Pri)
  | .consumeBytes n =>
    some { s with
      client := (s.client.consumeBytes n).1
      starting := if (s.client.consumeBytes n).2 then s.starting + 1 else s.starting }
  | .promoteKey idx =>
    some { s with client := { s.client with crypto := s.client.crypto.promoteKey idx } }
  | .startRekey now =>
    enabledIf (0 < s.starting) { s.startRekey now with starting := s.starting - 1 }
  | .tick now => some (s.startRekey now)
  | .generate key =>
    enabledIf (s.phase = .generating)
      (match key with
       | .error _ => s.doRekeyFails
       | .ok pri => { s with
           client := { s.client with clientPriKey := some pri }
           phase := .sending (C.publicBytes pri) })
  | .send result =>
    match s.phase, result with
    | .sending _, .error _ => some s.doRekeyFails
    | .sending pubKey, .ok _ => some { s with phase := .requested pubKey }
    | _, _ => none
  | .serve now msg key result =>
    match s.phase with
    | .requested pubKey => some (s.serve C L now (msg.map fun _ => pubKey) key result)
    | _ => none
  | .respond now msg =>
    match s.phase with
    | .answered _ => some (s.respond C L now msg)
    | _ => none
  | .close => some { s with client := { s.client with closed := true } }

/-- A client and a server, before the first rekey. -/
def attempts : System (State Key Pri) (Label Pri) where
  init := fun s => s.phase = .idle ∧ s.starting = 0 ∧ s.client.clientPriKey = none ∧
    s.client.closed = false ∧
    ∃ now pass salt bytesThreshold timeThreshold delegToProxy,
      RotatingCrypto.new L now pass salt bytesThreshold timeThreshold delegToProxy
        = .ok s.client.crypto
  step := fun s l s' => next C L s l = some s'

/-! ## Able to rekey -/

/-- No attempt is in flight, and the next `consumeBytes` that leaves the count at or above the
    threshold starts a rekey, whenever its goroutine runs. -/
def Client.AbleToRekey (c : Client Key Pri) : Prop :=
  c.crypto.rekeyInFlight = false ∧
  ∀ n now, c.crypto.bytesThreshold ≤ (c.consumeBytes n).1.crypto.bytesConsumed →
    (c.consumeBytes n).2 = true ∧ ((c.consumeBytes n).1.startRekey now).2 = true

section Able

variable {c : Client Key Pri} {n : UInt64} {now : Nat}

/-- A threshold of zero means no rekey by bytes. -/
theorem consumeBytes_off (h : c.crypto.bytesThreshold = 0) : c.consumeBytes n = (c, false) := by
  unfold Client.consumeBytes RotatingCrypto.consumeBytes
  rw [if_pos h]

theorem consumeBytes_on (h : c.crypto.bytesThreshold ≠ 0) :
    c.consumeBytes n =
      ({ c with crypto := { c.crypto with
          bytesConsumed := c.crypto.bytesConsumed + n
          bytesTriggered := c.crypto.bytesTriggered ||
            decide (c.crypto.bytesThreshold ≤ c.crypto.bytesConsumed + n) } },
        decide (c.crypto.bytesThreshold ≤ c.crypto.bytesConsumed + n) &&
          !c.crypto.bytesTriggered) := by
  unfold Client.consumeBytes RotatingCrypto.consumeBytes
  rw [if_neg h]
  by_cases hreached : c.crypto.bytesThreshold ≤ c.crypto.bytesConsumed + n <;>
    cases c.crypto.bytesTriggered <;> simp [hreached]

theorem rekeyInFlight_consumeBytes :
    (c.consumeBytes n).1.crypto.rekeyInFlight = c.crypto.rekeyInFlight := by
  by_cases h : c.crypto.bytesThreshold = 0
  · rw [consumeBytes_off h]
  · rw [consumeBytes_on h]

/-- `startRekey` changes nothing, or sets the attempt in flight. -/
theorem startRekey_cases (c : Client Key Pri) (now : Nat) :
    c.startRekey now = (c, false) ∨
    c.startRekey now = ({ c with crypto := { c.crypto with rekeyInFlight := true } }, true) := by
  unfold Client.startRekey
  split
  · exact .inl rfl
  · split
    · exact .inl rfl
    · split
      · exact .inl rfl
      · exact .inr rfl

/-- With the threshold reached, `startRekey` starts unless it is closed or in flight. -/
theorem startRekey_started (hreached : c.crypto.bytesThreshold ≤ c.crypto.bytesConsumed) :
    (c.startRekey now).2 = true ↔ c.closed = false ∧ c.crypto.rekeyInFlight = false := by
  have hnot : ¬ (c.recentlyRekeyed now = true ∧
      c.crypto.bytesConsumed < c.crypto.bytesThreshold) := fun h =>
    absurd h.2 (UInt64.not_lt.mpr hreached)
  unfold Client.startRekey
  rw [if_neg hnot]
  cases hclosed : c.closed <;> cases hflight : c.crypto.rekeyInFlight <;> simp

/-- **What a client needs for the next rekey by bytes.** -/
theorem ableToRekey_iff : c.AbleToRekey ↔ c.crypto.rekeyInFlight = false ∧ c.closed = false ∧
    c.crypto.bytesThreshold ≠ 0 ∧ c.crypto.bytesTriggered = false := by
  constructor
  · intro ⟨hflight, hnext⟩
    have hon : c.crypto.bytesThreshold ≠ 0 := by
      intro hoff
      have hstarts := (hnext 0 0 (by rw [hoff]; exact UInt64.zero_le)).1
      rw [consumeBytes_off hoff] at hstarts
      cases hstarts
    -- The bytes that are missing lead exactly to the threshold.
    let missing := c.crypto.bytesThreshold - c.crypto.bytesConsumed
    have hreached : c.crypto.bytesThreshold ≤ c.crypto.bytesConsumed + missing := by
      rw [UInt64.add_comm, UInt64.sub_add_cancel]
      exact UInt64.le_refl _
    have hstarts := hnext missing 0
    rw [consumeBytes_on hon] at hstarts
    obtain ⟨htrigger, hstarted⟩ := hstarts hreached
    rw [Bool.and_eq_true, Bool.not_eq_true'] at htrigger
    exact ⟨hflight, ((startRekey_started hreached).mp hstarted).1, hon, htrigger.2⟩
  · intro ⟨hflight, hclosed, hon, htriggered⟩
    refine ⟨hflight, ?_⟩
    intro n now
    rw [consumeBytes_on hon]
    intro hreached
    have hreached : c.crypto.bytesThreshold ≤ c.crypto.bytesConsumed + n := hreached
    refine ⟨?_, (startRekey_started hreached).mpr ⟨hclosed, hflight⟩⟩
    rw [htriggered, decide_eq_true hreached]
    rfl

end Able

/-! ## The ends of an attempt -/

/-- The step ends the attempt, and the client has no new key from it. -/
structure EndsWithoutKey (s s' : State Key Pri) : Prop where
  before : s.phase ≠ .idle
  after : s'.phase = .idle
  keys : s'.client.crypto.gcmList = s.client.crypto.gcmList

/-- The step is a failure of `GenerateKey` or `sendBusMessage` in the client's `doRekey`. -/
def FailsInDoRekey : Label Pri → Prop
  | .generate (.error _) => True
  | .send (.error _) => True
  | _ => False

variable {C : Curve Pri Pub} {L : CryptoLib Key} {s s' : State Key Pri} {l : Label Pri}

/-- A computation with errors that succeeds is one whose parts do. -/
theorem bind_ok {ε α β : Type} {x : Except ε α} {f : α → Except ε β} {b : β}
    (h : x >>= f = .ok b) : ∃ a, x = .ok a ∧ f a = .ok b := by
  cases x with
  | error e => cases h
  | ok a => exact ⟨a, rfl, h⟩

theorem handleClientRekey_ok {c c' : Client Key Pri} {now : Nat} {pubKey : Bytes}
    (h : c.handleClientRekey C L now pubKey = .ok c') :
    ∃ k, c'.crypto.gcmList = c.crypto.gcmList ++ [k] := by
  unfold Client.handleClientRekey at h
  obtain ⟨serverPubKey, _, h⟩ := bind_ok h
  cases hpri : c.clientPriKey with
  | none =>
    rw [hpri] at h
    cases h
  | some clientPriKey =>
    rw [hpri] at h
    obtain ⟨secret, _, h⟩ := bind_ok h
    obtain ⟨crypto, hinstall, h⟩ := bind_ok h
    cases h
    obtain ⟨k, _, hlist, _⟩ := RotatingCrypto.installKey_ok hinstall
    exact ⟨k, hlist⟩

/-- Whatever the server does, the client does not notice. -/
theorem client_serve (s : State Key Pri) (now : Nat) (msg : Except String Bytes)
    (key : Except String Pri) (result : Except String Unit) :
    (s.serve C L now msg key result).client = s.client := by
  unfold State.serve
  split <;> rfl

/-- A response installs a key or changes nothing. -/
theorem client_respond (s : State Key Pri) (now : Nat) (msg : Except String Bytes) :
    (s.respond C L now msg).client = s.client ∨
    ∃ k, (s.respond C L now msg).client.crypto.gcmList = s.client.crypto.gcmList ++ [k] := by
  unfold State.respond
  split
  · exact .inl rfl
  · next client hclient =>
    obtain ⟨pubKey, _, hclient⟩ := bind_ok hclient
    exact .inr (handleClientRekey_ok hclient)

/-- **How an attempt ends**: in `doRekey`, which resets `rekeyInFlight`, or later, which leaves
    the client as it is. -/
theorem ends_cases (hend : EndsWithoutKey s s') (hnext : next C L s l = some s') :
    (FailsInDoRekey l ∧ s'.client = s.client.resetInFlight) ∨
    (¬ FailsInDoRekey l ∧ s'.client = s.client) := by
  obtain ⟨hbefore, hafter, hkeys⟩ := hend
  -- A step that keeps the phase ends nothing.
  have hkeeps : s'.phase ≠ s.phase := fun h => hbefore (h.symm.trans hafter)
  have hstart : ∀ now, (s.startRekey now).phase ≠ .idle := by
    intro now
    unfold State.startRekey
    rcases startRekey_cases s.client now with h | h
    · rw [h]
      exact hbefore
    · rw [h]
      simp
  cases l with
  | consumeBytes n | promoteKey idx | close =>
    cases hnext
    exact absurd rfl hkeeps
  | startRekey now =>
    obtain ⟨_, rfl⟩ := enabledIf_eq_some hnext
    exact absurd hafter (hstart now)
  | tick now =>
    cases hnext
    exact absurd hafter (hstart now)
  | generate key =>
    obtain ⟨_, rfl⟩ := enabledIf_eq_some hnext
    cases key with
    | error e => exact .inl ⟨trivial, rfl⟩
    | ok pri => cases hafter
  | send result =>
    simp only [next] at hnext
    split at hnext
    · cases hnext
      exact .inl ⟨trivial, rfl⟩
    · cases hnext
      cases hafter
    · cases hnext
  | serve now msg key result =>
    refine .inr ⟨id, ?_⟩
    simp only [next] at hnext
    split at hnext
    · cases hnext
      exact client_serve s now _ key result
    · cases hnext
  | respond now msg =>
    refine .inr ⟨id, ?_⟩
    simp only [next] at hnext
    split at hnext
    · cases hnext
      rcases client_respond (C := C) (L := L) s now msg with hsame | ⟨k, hlist⟩
      · exact hsame
      · rw [hkeys] at hlist
        simp at hlist
    · cases hnext

/-- While an attempt is under way, it is in flight. -/
def InFlight (s : State Key Pri) : Prop :=
  s.phase ≠ .idle → s.client.crypto.rekeyInFlight = true

theorem InFlight.startRekey (h : InFlight s) (now : Nat) : InFlight (s.startRekey now) := by
  unfold InFlight State.startRekey
  rcases startRekey_cases s.client now with heq | heq
  · rw [heq]
    exact h
  · rw [heq]
    exact fun _ => rfl

theorem rekeyInFlight_promoteKey (r : RotatingCrypto Key) (idx : Nat) :
    (r.promoteKey idx).rekeyInFlight = r.rekeyInFlight := by
  unfold RotatingCrypto.promoteKey
  split <;> rfl

theorem InFlight.step (h : InFlight s) (hnext : next C L s l = some s') : InFlight s' := by
  cases l with
  | consumeBytes n =>
    cases hnext
    intro hphase
    show (s.client.consumeBytes n).1.crypto.rekeyInFlight = true
    rw [rekeyInFlight_consumeBytes]
    exact h hphase
  | promoteKey idx =>
    cases hnext
    intro hphase
    show (s.client.crypto.promoteKey idx).rekeyInFlight = true
    rw [rekeyInFlight_promoteKey]
    exact h hphase
  | startRekey now =>
    obtain ⟨_, rfl⟩ := enabledIf_eq_some hnext
    exact h.startRekey now
  | tick now =>
    cases hnext
    exact h.startRekey now
  | generate key =>
    obtain ⟨hphase, rfl⟩ := enabledIf_eq_some hnext
    cases key with
    | error e => exact fun hidle => absurd rfl hidle
    -- the key pair is stored beside the cipher, which stays as it is
    | ok pri => exact fun _ => h (by rw [hphase]; simp)
  | send result =>
    simp only [next] at hnext
    split at hnext
    · cases hnext
      exact fun hidle => absurd rfl hidle
    · next hphase =>
      cases hnext
      exact fun _ => h (by rw [hphase]; simp)
    · cases hnext
  | serve now msg key result =>
    simp only [next] at hnext
    split at hnext
    · next hphase =>
      cases hnext
      intro _
      rw [client_serve]
      exact h (by rw [hphase]; simp)
    · cases hnext
  | respond now msg =>
    simp only [next] at hnext
    split at hnext
    · cases hnext
      unfold State.respond
      split <;> exact fun hidle => absurd rfl hidle
    · cases hnext
  | close =>
    cases hnext
    exact h

theorem attempts_inFlight (hs : (attempts C L).Reachable s) : InFlight s := by
  apply System.invariant _ _ _ hs
  · rintro s ⟨hidle, _⟩
    exact fun h => absurd hidle h
  · intro s l s' h hnext
    exact h.step hnext

/-- **Which failures leave the client able to rekey.**  When an attempt ends and the client has no
    new key from it: `rekeyInFlight` is false and the next `consumeBytes` that leaves the count at
    or above the threshold starts a rekey, exactly if the failure was one of `doRekey`, the bytes
    had not triggered a rekey before it, and the client rekeys by bytes at all and is not
    closed. -/
theorem failed_attempt_leaves_able_iff (hs : (attempts C L).Reachable s)
    (hnext : next C L s l = some s') (hend : EndsWithoutKey s s') :
    s'.client.AbleToRekey ↔
      FailsInDoRekey l ∧ s.client.crypto.bytesTriggered = false ∧
        s.client.crypto.bytesThreshold ≠ 0 ∧ s.client.closed = false := by
  rcases ends_cases hend hnext with ⟨hdo, hclient⟩ | ⟨hlater, hclient⟩
  -- A failure of `doRekey` clears `rekeyInFlight`; the rest is as it was before.
  · rw [hclient, ableToRekey_iff]
    constructor
    · intro ⟨_, hclosed, hon, htriggered⟩
      exact ⟨hdo, htriggered, hon, hclosed⟩
    · intro ⟨_, htriggered, hon, hclosed⟩
      exact ⟨rfl, hclosed, hon, htriggered⟩
  -- A later failure leaves the client in flight.
  · rw [hclient, ableToRekey_iff, attempts_inFlight hs hend.before]
    constructor
    · intro ⟨hflight, _⟩
      cases hflight
    · intro ⟨hdo, _⟩
      exact absurd hdo hlater

/-! ### Attempts of a small client -/

/-- A curve on bytes; a public key is one byte. -/
def byteCurve : Curve UInt8 UInt8 where
  publicBytes := fun pri => [pri]
  newPublicKey := fun
    | [pub] => .ok pub
    | _ => .error "invalid public key"
  ecdh := fun pri pub => .ok [pri + pub]

/-- A client that rekeys after 100 bytes and every 1000 ms, and its server. -/
def limitedStart : State UInt8 UInt8 :=
  { client := {
      crypto := { RotatingCrypto.underKeyOne false with
        bytesThreshold := 100, timeThreshold := 1000 }
      clientPriKey := none
      closed := false }
    server := some (RotatingCrypto.underKeyOne false)
    phase := .idle
    starting := 0 }

theorem limitedStart_init : (attempts byteCurve RotatingCrypto.xorLib).init limitedStart :=
  ⟨rfl, rfl, rfl, rfl, 0, [1], [], 100, 1000, false, rfl⟩

/-- Evaluate the steps of an attempt and the step that ends it. -/
theorem ends_of_runLabels (steps : List (Label UInt8)) (last : Label UInt8)
    {P : State UInt8 UInt8 → State UInt8 UInt8 → Prop} [∀ s s', Decidable (P s s')]
    (h : (runLabels (next byteCurve RotatingCrypto.xorLib) limitedStart steps).any (fun s =>
      (next byteCurve RotatingCrypto.xorLib s last).any fun s' =>
        decide (s.phase ≠ .idle ∧ s'.phase = .idle ∧
          s'.client.crypto.gcmList = s.client.crypto.gcmList ∧ P s s')) = true) :
    ∃ s s', runLabels (next byteCurve RotatingCrypto.xorLib) limitedStart steps = some s ∧
      (attempts byteCurve RotatingCrypto.xorLib).Reachable s ∧
      next byteCurve RotatingCrypto.xorLib s last = some s' ∧ EndsWithoutKey s s' ∧ P s s' := by
  obtain ⟨s, s', hrun, hnext, hbefore, hafter, hkeys, hP⟩ := exists_step_of_runLabels h
  exact ⟨s, s', hrun, .of_runLabels (fun _ _ _ h => h) (.init limitedStart_init) hrun, hnext,
    ⟨hbefore, hafter, hkeys⟩, hP⟩

/-- The ticker starts a rekey and the key generation fails. -/
theorem failed_attempt_leaves_able_after_tick :
    ∃ s s', (attempts byteCurve RotatingCrypto.xorLib).Reachable s ∧
      next byteCurve RotatingCrypto.xorLib s (.generate (.error "no entropy")) = some s' ∧
      EndsWithoutKey s s' ∧ s'.client.AbleToRekey := by
  obtain ⟨s, s', _, hs, hnext, hend, hbytes⟩ := ends_of_runLabels
    [.consumeBytes 60, .tick 1000] (.generate (.error "no entropy"))
    (P := fun s _ => s.client.crypto.bytesTriggered = false ∧
      s.client.crypto.bytesThreshold ≠ 0 ∧ s.client.closed = false) (by decide +kernel)
  exact ⟨s, s', hs, hnext, hend,
    (failed_attempt_leaves_able_iff hs hnext hend).mpr ⟨trivial, hbytes⟩⟩

/-- After these steps of the small client, that step ends the attempt and the client cannot
    rekey. -/
def Blocks (steps : List (Label UInt8)) (last : Label UInt8) : Prop :=
  ∃ s s', runLabels (next byteCurve RotatingCrypto.xorLib) limitedStart steps = some s ∧
    (attempts byteCurve RotatingCrypto.xorLib).Reachable s ∧
    next byteCurve RotatingCrypto.xorLib s last = some s' ∧ EndsWithoutKey s s' ∧
    ¬ s'.client.AbleToRekey

/-- It is enough that one of the two flags is left set. -/
theorem blocks_of_runLabels {steps : List (Label UInt8)} {last : Label UInt8}
    (h : (runLabels (next byteCurve RotatingCrypto.xorLib) limitedStart steps).any (fun s =>
      (next byteCurve RotatingCrypto.xorLib s last).any fun s' =>
        decide (s.phase ≠ .idle ∧ s'.phase = .idle ∧
          s'.client.crypto.gcmList = s.client.crypto.gcmList ∧
          (s'.client.crypto.rekeyInFlight = true ∨
            s'.client.crypto.bytesTriggered = true))) = true) :
    Blocks steps last := by
  obtain ⟨s, s', hrun, hs, hnext, hend, hflags⟩ := ends_of_runLabels steps last h
  refine ⟨s, s', hrun, hs, hnext, hend, ?_⟩
  rw [ableToRekey_iff]
  rintro ⟨hflight, _, _, htriggered⟩
  rw [hflight, htriggered] at hflags
  simp at hflags

/-- The bytes start a rekey whose request cannot be sent; the ticker starts one that the server
    cannot serve; the ticker starts one whose response is no public key.  None of them leaves the
    client able to rekey. -/
theorem failed_attempt_blocks_rekey :
    Blocks [.consumeBytes 100, .startRekey 5, .generate (.ok 3)]
      (.send (.error "stream closed")) ∧
    Blocks [.tick 1000, .generate (.ok 3), .send (.ok ())]
      (.serve 1001 (.ok ()) (.error "no entropy") (.ok ())) ∧
    Blocks [.tick 1000, .generate (.ok 3), .send (.ok ()), .serve 1001 (.ok ()) (.ok 4) (.ok ())]
      (.respond 1002 (.ok [])) := by
  refine ⟨?_, ?_, ?_⟩
  · exact blocks_of_runLabels (by decide +kernel)
  · exact blocks_of_runLabels (by decide +kernel)
  · exact blocks_of_runLabels (by decide +kernel)

end Attempts

end Rekey
