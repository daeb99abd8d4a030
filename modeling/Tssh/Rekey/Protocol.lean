import Tssh.Rekey.Crypto

/-! # Rekeying between a Client and a Server

    The client asks for a new key over the bus; the server installs it without
    using it and answers; the client installs it and sends under it from then
    on; each side drops its old keys when a packet arrives under the new one.
    Data packets travel beside the rekey messages and may be lost, duplicated
    or reordered.

    The network is the list of all packets a side ever sent: a receiver may
    read any of them, at any time and any number of times.  `Open` is two
    critical sections of the source, the search through a snapshot of the key
    list and the promotion of the key that was found, so a read that finds a
    later key stays pending (`Opening`) until the promotion step; each side has
    one reader.

    Assumed, as steps of the system: a rekey request and its response are
    delivered once and in order, each opened by its receiver before it is
    handled; a rekey starts only when none is in flight; both sides derive the
    same key from a rekey, and it is fresh.

    * `Inv`: the joint states of the two key lists, phase by phase.
    * `rekey_keeps_common_keys`: in every reachable state each side can open
      what the other side sends, and neither list has more than two keys.
-/

open Go LTS

namespace Rekey

variable {Key : Type} [DecidableEq Key] (L : CryptoLib Key)

/-! ## Packets and the key that opens them -/

/-- A sealed packet, with the key it was sealed under. -/
structure Packet (Key : Type) where
  key : Key
  nonce : Bytes
  plaintext : Bytes

def Packet.ciphertext (pkt : Packet Key) : Bytes := L.gcm.enc pkt.key pkt.nonce pkt.plaintext

/-- The index at which the loop of `Open` stops. -/
def openIdx (keys : List Key) (nonce ciphertext : Bytes) : Option Nat :=
  keys.findIdx? (fun k => (L.gcm.dec k nonce ciphertext).isSome)

/-! ## State -/

/-- A read whose promotion is still to come: the index that opened the packet, and
    whether the packet carried a rekey message. -/
structure Opening where
  idx : Nat
  rekey : Bool
  deriving DecidableEq, Repr

/-- One side: its cipher, its reader, and every packet it ever sent. -/
structure Party (Key : Type) where
  crypto : RotatingCrypto Key
  opening : Option Opening
  sent : List (Packet Key)

/-- The rekey in flight. -/
inductive Phase (Key : Type) where
  | idle
  | requestSent (pkt : Packet Key)
  | requestReading
  | requestOpened
  | responseSent (pkt : Packet Key) (secret : Bytes)
  | responseReading (secret : Bytes)
  | responseOpened (secret : Bytes)

structure State (Key : Type) where
  client : Party Key
  server : Party Key
  phase : Phase Key
  /-- History variable: every key that was ever derived. -/
  keys : List Key

/-! ## Steps of one side -/

/-- The key a side seals under. -/
def Party.active (p : Party Key) : Option Key := p.crypto.gcmList[p.crypto.activeIdx]?

/-- Seal a packet under the active key and send it. -/
def Party.send (p : Party Key) (nonce plaintext : Bytes) : Option (Packet Key × Party Key) :=
  p.active.map fun k =>
    let pkt : Packet Key := { key := k, nonce := nonce, plaintext := plaintext }
    (pkt, { p with
      crypto := (p.crypto.consumeBytes (UInt64.ofNat plaintext.length)).1
      sent := p.sent ++ [pkt] })

/-- The reader's search through the key list.  A packet that no key opens has no
    effect and is no step. -/
def Party.read (p : Party Key) (pkt : Packet Key) (rekey : Bool) : Option (Party Key) :=
  if p.opening.isSome then none
  else
    match openIdx L p.crypto.gcmList pkt.nonce (pkt.ciphertext L) with
    | none => none
    | some 0 => some { p with
        crypto := (p.crypto.consumeBytes (UInt64.ofNat pkt.plaintext.length)).1 }
    | some (i + 1) => some { p with opening := some { idx := i + 1, rekey := rekey } }

/-- The promotion that ends a read, and whether a rekey message was read. -/
def Party.finish (p : Party Key) : Option (Bool × Party Key) :=
  p.opening.map fun o =>
    (o.rekey, { p with crypto := p.crypto.promoteKey o.idx, opening := none })

/-- A rekey message has been read to its end. -/
def Phase.readDone : Phase Key → Phase Key
  | .requestReading => .requestOpened
  | .responseReading secret => .responseOpened secret
  | phase => phase

/-! ## The protocol -/

inductive Label where
  | clientSend (nonce plaintext : Bytes)
  | serverSend (nonce plaintext : Bytes)
  /-- The client reads the `i`-th packet the server ever sent. -/
  | clientRead (i : Nat)
  | serverRead (i : Nat)
  | clientFinish
  | serverFinish
  | startRekey (nonce msg : Bytes)
  | readRequest
  | handleRequest (now : Nat) (secret nonce msg : Bytes)
  | readResponse
  | handleResponse (now : Nat)

/-- `startRekey`, with the request that `doRekey` sends. -/
def startRekey (s : State Key) (nonce msg : Bytes) : Option (State Key) :=
  match s.phase with
  | .idle =>
    let client := { s.client with crypto := { s.client.crypto with rekeyInFlight := true } }
    (client.send nonce msg).map fun (pkt, c) => { s with client := c, phase := .requestSent pkt }
  | _ => none

def readRequest (s : State Key) : Option (State Key) :=
  match s.phase with
  | .requestSent pkt => (s.server.read L pkt true).map fun p =>
      { s with server := p, phase := if p.opening.isSome then .requestReading else .requestOpened }
  | _ => none

/-- `handleServerRekey`: install the fresh key without using it, and answer. -/
def handleRequest (s : State Key) (now : Nat) (secret nonce msg : Bytes) : Option (State Key) :=
  match s.phase, L.deriveKey secret s.server.crypto.keySalt,
      s.server.crypto.installKey L now secret false with
  | .requestOpened, .ok k, .ok r =>
    if k ∈ s.keys then none
    else ({ s.server with crypto := r }.send nonce msg).map fun (pkt, p) =>
      { s with server := p, phase := .responseSent pkt secret, keys := s.keys ++ [k] }
  | _, _, _ => none

def readResponse (s : State Key) : Option (State Key) :=
  match s.phase with
  | .responseSent pkt secret => (s.client.read L pkt true).map fun p =>
      { s with
        client := p
        phase := if p.opening.isSome then .responseReading secret else .responseOpened secret }
  | _ => none

/-- `handleClientRekey`: install the same key and use it. -/
def handleResponse (s : State Key) (now : Nat) : Option (State Key) :=
  match s.phase with
  | .responseOpened secret =>
    match s.client.crypto.installKey L now secret true with
    | .ok r => some { s with client := { s.client with crypto := r }, phase := .idle }
    | .error _ => none
  | _ => none

def next (s : State Key) : Label → Option (State Key)
  | .clientSend nonce p => (s.client.send nonce p).map fun (_, c) => { s with client := c }
  | .serverSend nonce p => (s.server.send nonce p).map fun (_, c) => { s with server := c }
  | .clientRead i => (s.server.sent[i]?).bind fun pkt =>
      (s.client.read L pkt false).map fun c => { s with client := c }
  | .serverRead i => (s.client.sent[i]?).bind fun pkt =>
      (s.server.read L pkt false).map fun c => { s with server := c }
  | .clientFinish => s.client.finish.map fun (rekey, c) =>
      { s with client := c, phase := if rekey then s.phase.readDone else s.phase }
  | .serverFinish => s.server.finish.map fun (rekey, c) =>
      { s with server := c, phase := if rekey then s.phase.readDone else s.phase }
  | .startRekey nonce msg => startRekey s nonce msg
  | .readRequest => readRequest L s
  | .handleRequest now secret nonce msg => handleRequest L s now secret nonce msg
  | .readResponse => readResponse L s
  | .handleResponse now => handleResponse L s now

/-- Two ciphers made from the same key, with no packet sent yet. -/
def protocol : System (State Key) Label where
  init := fun s => ∃ now pass salt bytesThreshold timeThreshold now' k,
    RotatingCrypto.new L now pass salt bytesThreshold timeThreshold false = .ok s.client.crypto ∧
    RotatingCrypto.new L now' pass salt 0 0 false = .ok s.server.crypto ∧
    L.deriveKey pass salt = .ok k ∧ s.keys = [k] ∧
    s.client.opening = none ∧ s.client.sent = [] ∧
    s.server.opening = none ∧ s.server.sent = [] ∧ s.phase = .idle
  step := fun s l s' => next L s l = some s'

/-! ## The index at which `Open` stops -/

section OpenIdx

variable {L}

/-- A packet is opened by the first occurrence of the key it was sealed under. -/
theorem openIdx_sealed (keys : List Key) (pkt : Packet Key) :
    openIdx L keys pkt.nonce (pkt.ciphertext L) = keys.findIdx? (fun k => k = pkt.key) := by
  unfold openIdx Packet.ciphertext
  congr 1
  funext k
  by_cases hk : k = pkt.key
  · simp [hk, L.gcm.dec_enc]
  · simp [hk, L.gcm.dec_other pkt.key k pkt.nonce pkt.plaintext hk]

/-- `Open` as one call is the search followed by the promotion, with nothing in between. -/
theorem openSlice_eq_read_finish {p : Party Key} {pkt : Packet Key} {h : Heap} {ct : Slice}
    (hown : p.crypto.delegatedToProxy = false) (hidle : p.opening = none) (hct : ct.Valid h)
    (hsealed : ct.bytes h = pkt.ciphertext L) (rekey : Bool) :
    (p.crypto.openSlice L h (ct.upTo 0) pkt.nonce ct).2.2 =
      match p.read L pkt rekey with
      | none => p.crypto
      | some p' =>
        match p'.finish with
        | none => p'.crypto
        | some (_, p'') => p''.crypto := by
  unfold Party.read
  rw [openIdx_sealed, hidle]
  by_cases hk : pkt.key ∈ p.crypto.gcmList
  · obtain ⟨pre, post, hlist, hpre⟩ := List.eq_append_cons_of_mem hk
    have hidx : p.crypto.gcmList.findIdx? (fun k => k = pkt.key) = some pre.length := by
      rw [hlist, List.findIdx?_append, List.findIdx?_eq_none_iff.mpr]
      · simp [List.findIdx?_cons]
      · intro g hg
        have hne : g ≠ pkt.key := fun heq => hpre (heq ▸ hg)
        simp [hne]
    have hloop : ∃ h' q, q.len = pkt.plaintext.length ∧
        RotatingCrypto.openLoop L (ct.upTo 0) pkt.nonce ct p.crypto.gcmList 0 h =
          (some (pre.length, q), h') := by
      by_cases hpost : post = []
      · subst hpost
        obtain ⟨h', _, heq⟩ := RotatingCrypto.openLoop_last pre 0 hpre hct hsealed
        exact ⟨_, ct.upTo pkt.plaintext.length, rfl, by rw [hlist, heq, Nat.zero_add]⟩
      · obtain ⟨h', q, _, hlen, _, heq⟩ :=
          RotatingCrypto.openLoop_early pre post 0 hpre hpost hct hsealed
        exact ⟨h', q, hlen, by rw [hlist, heq, Nat.zero_add]⟩
    obtain ⟨h', q, hlen, hloop⟩ := hloop
    rw [hidx]
    cases hn : pre.length with
    | zero => simp [RotatingCrypto.openSlice, hown, hloop, hlen, hn, Party.finish]
    | succ n => simp [RotatingCrypto.openSlice, hown, hloop, hn, Party.finish]
  · have hnone := RotatingCrypto.openLoop_none 0 hk hct hsealed
    have hidx : p.crypto.gcmList.findIdx? (fun k => k = pkt.key) = none := by
      rw [List.findIdx?_eq_none_iff]
      intro g hg
      have hne : g ≠ pkt.key := fun heq => hk (heq ▸ hg)
      simp [hne]
    rw [hidx]
    simp [RotatingCrypto.openSlice, hown, hnone]

end OpenIdx

/-! ## What a step of one side does -/

section PartySteps

variable {L} {p p' : Party Key} {pkt : Packet Key} {list : List Key} {idx : Nat}
  {o : Option Opening} {a b : Key}

/-- The keys of a side, and its reader. -/
structure Party.Holds (p : Party Key) (list : List Key) (idx : Nat) (o : Option Opening) :
    Prop where
  list : p.crypto.gcmList = list
  idx : p.crypto.activeIdx = idx
  opening : p.opening = o

omit [DecidableEq Key] in
theorem send_holds {nonce plaintext : Bytes} (h : p.Holds list idx o)
    (hsend : p.send nonce plaintext = some (pkt, p')) :
    p'.Holds list idx o ∧ list[idx]? = some pkt.key ∧ p'.sent = p.sent ++ [pkt] ∧
      p'.crypto.keySalt = p.crypto.keySalt := by
  unfold Party.send Party.active at hsend
  rw [h.list, h.idx] at hsend
  obtain ⟨k, hk, heq⟩ := Option.map_eq_some_iff.mp hsend
  cases heq
  obtain ⟨_, hlist, hidx, hsalt⟩ :=
    p.crypto.consumeBytes_fields (UInt64.ofNat plaintext.length)
  exact ⟨⟨hlist.trans h.list, hidx.trans h.idx, h.opening⟩, hk, rfl, hsalt⟩

/-- Only a free reader reads, and what it finds first is the key of the packet. -/
theorem read_holds {rekey : Bool} (h : p.Holds list idx o)
    (hread : p.read L pkt rekey = some p') :
    o = none ∧ p'.sent = p.sent ∧ p'.crypto.keySalt = p.crypto.keySalt ∧
      ∃ i, list.findIdx? (fun k => k = pkt.key) = some i ∧
        p'.Holds list idx (if i = 0 then none else some { idx := i, rekey := rekey }) := by
  unfold Party.read at hread
  rw [openIdx_sealed, h.list, h.opening] at hread
  split at hread
  · cases hread
  · next hfree =>
    have ho : o = none := by simpa using hfree
    split at hread
    · cases hread
    · next hi =>
      cases hread
      obtain ⟨_, hlist, hidx, hsalt⟩ :=
        p.crypto.consumeBytes_fields (UInt64.ofNat pkt.plaintext.length)
      exact ⟨ho, rfl, hsalt, 0, hi, hlist.trans h.list, hidx.trans h.idx, by simpa using ho⟩
    · next i hi =>
      cases hread
      exact ⟨ho, rfl, rfl, i + 1, hi, h.list, h.idx, rfl⟩

omit [DecidableEq Key] in
theorem read_pending {rekey : Bool} {pending : Opening} (h : p.Holds list idx (some pending)) :
    p.read L pkt rekey ≠ some p' := by
  simp [Party.read, h.opening]

theorem read_single {rekey : Bool} (h : p.Holds [a] idx o)
    (hread : p.read L pkt rekey = some p') :
    o = none ∧ p'.sent = p.sent ∧ p'.crypto.keySalt = p.crypto.keySalt ∧
      p'.Holds [a] idx none := by
  obtain ⟨ho, hsent, hsalt, i, hi, hp'⟩ := read_holds h hread
  have hi0 : i = 0 := by
    simp only [List.findIdx?_cons, List.findIdx?_nil] at hi
    split at hi <;> simp_all
  rw [if_pos hi0] at hp'
  exact ⟨ho, hsent, hsalt, hp'⟩

theorem read_double {rekey : Bool} (h : p.Holds [a, b] idx o)
    (hread : p.read L pkt rekey = some p') :
    o = none ∧ p'.sent = p.sent ∧ p'.crypto.keySalt = p.crypto.keySalt ∧
      ((pkt.key = a ∧ p'.Holds [a, b] idx none) ∨
        (pkt.key = b ∧ p'.Holds [a, b] idx (some { idx := 1, rekey := rekey }))) := by
  obtain ⟨ho, hsent, hsalt, i, hi, hp'⟩ := read_holds h hread
  refine ⟨ho, hsent, hsalt, ?_⟩
  simp only [List.findIdx?_cons, List.findIdx?_nil] at hi
  by_cases ha : a = pkt.key
  · have hi0 : i = 0 := by simpa [ha] using hi.symm
    rw [if_pos hi0] at hp'
    exact .inl ⟨ha.symm, hp'⟩
  · by_cases hb : b = pkt.key
    · have hi1 : i = 1 := by simpa [ha, hb] using hi.symm
      subst hi1
      exact .inr ⟨hb.symm, hp'⟩
    · simp [ha, hb] at hi

omit [DecidableEq Key] in
theorem finish_none {rekey : Bool} (h : p.Holds list idx none) :
    p.finish ≠ some (rekey, p') := by
  simp [Party.finish, h.opening]

omit [DecidableEq Key] in
/-- The promotion drops the key before the one that was found. -/
theorem finish_double {rekey rekey' : Bool}
    (h : p.Holds [a, b] idx (some { idx := 1, rekey := rekey }))
    (hfinish : p.finish = some (rekey', p')) :
    rekey' = rekey ∧ p'.sent = p.sent ∧ p'.crypto.keySalt = p.crypto.keySalt ∧
      p'.Holds [b] 0 none := by
  unfold Party.finish at hfinish
  rw [h.opening] at hfinish
  cases hfinish
  have hlist : ¬ 1 ≥ p.crypto.gcmList.length := by simp [h.list]
  refine ⟨rfl, rfl, ?_, ?_, ?_, rfl⟩
  · simp [RotatingCrypto.promoteKey, hlist]
  · simp [RotatingCrypto.promoteKey, h.list]
  · simp [RotatingCrypto.promoteKey, hlist]

end PartySteps

/-! ## The invariant -/

section Invariant

/-- The client outside a promotion that a rekey message started: it sends under `k`, which
    it holds alone or after the key it replaces. -/
inductive Ready (c : Party Key) (k : Key) : Prop where
  | one (h : c.Holds [k] 0 none)
  | two (p : Key) (hne : p ≠ k) (h : c.Holds [p, k] 1 none)
  | promoting (p : Key) (hne : p ≠ k) (h : c.Holds [p, k] 1 (some { idx := 1, rekey := false }))

/-- No rekey in flight, or one whose request is sealed under `k` and not read yet. -/
def Phase.Pending (phase : Phase Key) (k : Key) : Prop :=
  phase = .idle ∨ ∃ pkt : Packet Key, phase = .requestSent pkt ∧ pkt.key = k

/-- The joint states of the two key lists, where `k` is the key the client sends under. -/
inductive Joint (s : State Key) (k : Key) : Prop where
  /-- The server has only `k` left. -/
  | agreed (hc : Ready s.client k) (hs : s.server.Holds [k] 0 none)
      (hp : s.phase.Pending k ∨ s.phase = .requestOpened)
  /-- The client has switched to `k` and the server waits for the first packet under it:
      until then both have the old key `p`, under which the server sends. -/
  | switched (p : Key) (hne : p ≠ k) (hmem : p ∈ s.keys) (hc : s.client.Holds [p, k] 1 none)
      (hsent : ∀ pkt ∈ s.server.sent, pkt.key ≠ k)
      (hs : ((s.server.Holds [p, k] 0 none ∨
            s.server.Holds [p, k] 0 (some { idx := 1, rekey := false })) ∧ s.phase.Pending k) ∨
          (s.server.Holds [p, k] 0 (some { idx := 1, rekey := true }) ∧
            s.phase = .requestReading))
  /-- The server has installed the next key, derived from `secret`, which no packet was sealed under yet. -/
  | installed (next : Key) (secret : Bytes) (hs : s.server.Holds [k, next] 0 none)
      (hne : next ≠ k) (hderive : L.deriveKey secret s.server.crypto.keySalt = .ok next)
      (hnext : next ∈ s.keys)
      (hfresh : (∀ pkt ∈ s.client.sent, pkt.key ≠ next) ∧
        (∀ pkt ∈ s.server.sent, pkt.key ≠ next))
      (hp : (∃ pkt : Packet Key, s.phase = .responseSent pkt secret ∧ pkt.key = k ∧
          Ready s.client k) ∨
        ((∃ p, s.client.Holds [p, k] 1 (some { idx := 1, rekey := true })) ∧
          s.phase = .responseReading secret) ∨
        (s.client.Holds [k] 0 none ∧ s.phase = .responseOpened secret))

/-- **The invariant of the protocol.** -/
structure Inv (s : State Key) : Prop where
  salt : s.client.crypto.keySalt = s.server.crypto.keySalt
  clientSent : ∀ pkt ∈ s.client.sent, pkt.key ∈ s.keys
  serverSent : ∀ pkt ∈ s.server.sent, pkt.key ∈ s.keys
  joint : ∃ k ∈ s.keys, Joint L s k

/-! ### Sending -/

variable {L} {s s' : State Key} {k : Key} {c : Party Key} {pkt : Packet Key}

section

omit [DecidableEq Key]

/-- A step that keeps what both sides hold, and adds packets under their active keys only,
    keeps the joint state. -/
theorem Joint.frame (h : Joint L s k)
    (hc : ∀ l i o, s.client.Holds l i o → s'.client.Holds l i o)
    (hs : ∀ l i o, s.server.Holds l i o → s'.server.Holds l i o) (hphase : s'.phase = s.phase)
    (hsalt : s'.server.crypto.keySalt = s.server.crypto.keySalt) (hkeys : s'.keys = s.keys)
    (hcs : ∀ pkt ∈ s'.client.sent, pkt ∈ s.client.sent ∨ pkt.key = k)
    (hss : ∀ pkt ∈ s'.server.sent, pkt ∈ s.server.sent ∨ s.server.active = some pkt.key) :
    Joint L s' k := by
  have hready : Ready s.client k → Ready s'.client k := by
    intro hr
    rcases hr with h₁ | ⟨p, hne, h₁⟩ | ⟨p, hne, h₁⟩
    · exact .one (hc _ _ _ h₁)
    · exact .two p hne (hc _ _ _ h₁)
    · exact .promoting p hne (hc _ _ _ h₁)
  rcases h with ⟨hcl, hsv, hp⟩ | ⟨p, hne, hmem, hcl, hsent, hsv⟩ |
    ⟨nxt, secret, hsv, hne, hderive, hnext, hfresh, hp⟩
  · exact .agreed (hready hcl) (hs _ _ _ hsv) (hphase ▸ hp)
  · -- the server sends under the old key
    have hactive : s.server.active = some p := by
      unfold Party.active
      rcases hsv with ⟨h₁ | h₁, _⟩ | ⟨h₁, _⟩ <;> simp [h₁.list, h₁.idx]
    refine .switched p hne (hkeys ▸ hmem) (hc _ _ _ hcl) ?_ ?_
    · intro pkt hpkt
      rcases hss pkt hpkt with hold | hnew
      · exact hsent pkt hold
      · rw [hactive, Option.some.injEq] at hnew
        exact hnew ▸ hne
    · rw [hphase]
      rcases hsv with ⟨h₁ | h₁, hp⟩ | ⟨h₁, hp⟩
      · exact .inl ⟨.inl (hs _ _ _ h₁), hp⟩
      · exact .inl ⟨.inr (hs _ _ _ h₁), hp⟩
      · exact .inr ⟨hs _ _ _ h₁, hp⟩
  · have hactive : s.server.active = some k := by simp [Party.active, hsv.list, hsv.idx]
    refine .installed nxt secret (hs _ _ _ hsv) hne (hsalt ▸ hderive) (hkeys ▸ hnext) ⟨?_, ?_⟩ ?_
    · intro pkt hpkt
      rcases hcs pkt hpkt with hold | hnew
      · exact hfresh.1 pkt hold
      · exact hnew ▸ hne.symm
    · intro pkt hpkt
      rcases hss pkt hpkt with hold | hnew
      · exact hfresh.2 pkt hold
      · rw [hactive, Option.some.injEq] at hnew
        exact hnew ▸ hne.symm
    · rw [hphase]
      rcases hp with ⟨pkt, hp, hkey, hr⟩ | ⟨⟨p, h₁⟩, hp⟩ | ⟨h₁, hp⟩
      · exact .inl ⟨pkt, hp, hkey, hready hr⟩
      · exact .inr (.inl ⟨⟨p, hc _ _ _ h₁⟩, hp⟩)
      · exact .inr (.inr ⟨hc _ _ _ h₁, hp⟩)

theorem Ready.keys (h : Ready c k) :
    (c.crypto.gcmList = [k] ∧ c.crypto.activeIdx = 0) ∨
      ∃ p, c.crypto.gcmList = [p, k] ∧ c.crypto.activeIdx = 1 := by
  rcases h with h₁ | ⟨p, _, h₁⟩ | ⟨p, _, h₁⟩
  · exact .inl ⟨h₁.list, h₁.idx⟩
  · exact .inr ⟨p, h₁.list, h₁.idx⟩
  · exact .inr ⟨p, h₁.list, h₁.idx⟩

/-- The client holds `k` alone or behind the key it replaces. -/
theorem Joint.client_keys (h : Joint L s k) :
    (s.client.crypto.gcmList = [k] ∧ s.client.crypto.activeIdx = 0) ∨
      ∃ p, s.client.crypto.gcmList = [p, k] ∧ s.client.crypto.activeIdx = 1 := by
  rcases h with ⟨hcl, _, _⟩ | ⟨p, _, _, hcl, _, _⟩ | ⟨_, _, _, _, _, _, _, hp⟩
  · exact hcl.keys
  · exact .inr ⟨p, hcl.list, hcl.idx⟩
  · rcases hp with ⟨_, _, _, hr⟩ | ⟨⟨p, h₁⟩, _⟩ | ⟨h₁, _⟩
    · exact hr.keys
    · exact .inr ⟨p, h₁.list, h₁.idx⟩
    · exact .inl ⟨h₁.list, h₁.idx⟩

/-- The server sends under the first key of its list: `k`, or the key before it that the client
    still has. -/
theorem Joint.server_keys (h : Joint L s k) :
    s.server.crypto.activeIdx = 0 ∧
      (s.server.crypto.gcmList = [k] ∨ (∃ next, s.server.crypto.gcmList = [k, next]) ∨
        ∃ p ∈ s.keys, s.server.crypto.gcmList = [p, k] ∧ p ∈ s.client.crypto.gcmList) := by
  rcases h with ⟨_, hsv, _⟩ | ⟨p, _, hmem, hcl, _, hsv⟩ | ⟨nxt, _, hsv, _, _, _, _, _⟩
  · exact ⟨hsv.idx, .inl hsv.list⟩
  · have hold : p ∈ s.client.crypto.gcmList := by simp [hcl.list]
    rcases hsv with ⟨h₁ | h₁, _⟩ | ⟨h₁, _⟩ <;>
      exact ⟨h₁.idx, .inr (.inr ⟨p, hmem, h₁.list, hold⟩)⟩
  · exact ⟨hsv.idx, .inr (.inl ⟨nxt, hsv.list⟩)⟩

/-- The client sends under `k`. -/
theorem Joint.client_active (h : Joint L s k) : s.client.active = some k := by
  unfold Party.active
  rcases h.client_keys with ⟨hlist, hidx⟩ | ⟨p, hlist, hidx⟩ <;> simp [hlist, hidx]

/-- The server sends under a key that was derived and that the client has. -/
theorem Joint.server_active (h : Joint L s k) (hk : k ∈ s.keys) :
    ∃ ks ∈ s.keys, s.server.active = some ks ∧ ks ∈ s.client.crypto.gcmList := by
  have hclient : k ∈ s.client.crypto.gcmList := by
    rcases h.client_keys with ⟨hlist, _⟩ | ⟨p, hlist, _⟩ <;> simp [hlist]
  unfold Party.active
  obtain ⟨hidx, hlist | ⟨nxt, hlist⟩ | ⟨p, hp, hlist, hmem⟩⟩ := h.server_keys
  · exact ⟨k, hk, by simp [hlist, hidx], hclient⟩
  · exact ⟨k, hk, by simp [hlist, hidx], hclient⟩
  · exact ⟨p, hp, by simp [hlist, hidx], hmem⟩

theorem clientSend_inv {nonce plaintext : Bytes} (hinv : Inv L s)
    (hsend : s.client.send nonce plaintext = some (pkt, c)) :
    Inv L { s with client := c } ∧
      ∃ k ∈ s.keys, pkt.key = k ∧ Joint L { s with client := c } k := by
  obtain ⟨k, hk, hjoint⟩ := hinv.joint
  obtain ⟨_, hkey, hsent, hsalt⟩ := send_holds ⟨rfl, rfl, rfl⟩ hsend
  have hactive : pkt.key = k := by
    have hck := hjoint.client_active
    rw [Party.active, hkey, Option.some.injEq] at hck
    exact hck
  have hmem : ∀ q ∈ c.sent, q ∈ s.client.sent ∨ q.key = k := by
    intro q hq
    rw [hsent, List.mem_append, List.mem_singleton] at hq
    rcases hq with hold | hnew
    · exact .inl hold
    · exact .inr (hnew ▸ hactive)
  have hjoint' : Joint L { s with client := c } k :=
    hjoint.frame (fun _ _ _ hh => (send_holds hh hsend).1) (fun _ _ _ hh => hh) rfl rfl rfl hmem
      (fun _ hq => .inl hq)
  refine ⟨⟨hsalt.trans hinv.salt, ?_, hinv.serverSent, k, hk, hjoint'⟩, k, hk, hactive, hjoint'⟩
  intro q hq
  rcases hmem q hq with hold | hnew
  · exact hinv.clientSent q hold
  · exact hnew ▸ hk

theorem serverSend_inv {nonce plaintext : Bytes} (hinv : Inv L s)
    (hsend : s.server.send nonce plaintext = some (pkt, c)) :
    Inv L { s with server := c } := by
  obtain ⟨k, hk, hjoint⟩ := hinv.joint
  obtain ⟨ks, hks, hactive, _⟩ := hjoint.server_active hk
  obtain ⟨_, hkey, hsent, hsalt⟩ := send_holds ⟨rfl, rfl, rfl⟩ hsend
  have hmem : ∀ q ∈ c.sent, q ∈ s.server.sent ∨ s.server.active = some q.key := by
    intro q hq
    rw [hsent, List.mem_append, List.mem_singleton] at hq
    rcases hq with hold | hnew
    · exact .inl hold
    · exact .inr (hnew ▸ hkey)
  refine ⟨hinv.salt.trans hsalt.symm, hinv.clientSent, ?_, k, hk, ?_⟩
  · intro q hq
    rcases hmem q hq with hold | hnew
    · exact hinv.serverSent q hold
    · rw [hactive, Option.some.injEq] at hnew
      exact hnew ▸ hks
  · exact hjoint.frame (fun _ _ _ hh => hh) (fun _ _ _ hh => (send_holds hh hsend).1) rfl hsalt rfl
      (fun _ hq => .inl hq) hmem

end

/-! ### Reading -/

theorem Ready.read {c c' : Party Key} (h : Ready c k) (hread : c.read L pkt false = some c') :
    Ready c' k := by
  rcases h with h₁ | ⟨p, hne, h₁⟩ | ⟨p, hne, h₁⟩
  · exact .one (read_single h₁ hread).2.2.2
  · obtain ⟨_, _, _, ⟨_, h₂⟩ | ⟨_, h₂⟩⟩ := read_double h₁ hread
    · exact .two p hne h₂
    · exact .promoting p hne h₂
  · exact absurd hread (read_pending h₁)

section

variable (hinv : Inv L s)
include hinv

/-- A data packet from the server: the client starts a promotion only if the server has
    already sent under `k`. -/
theorem clientRead_inv (hpkt : pkt ∈ s.server.sent) (hread : s.client.read L pkt false = some c) :
    Inv L { s with client := c } := by
  obtain ⟨k, hk, hjoint⟩ := hinv.joint
  obtain ⟨_, hsent, hsalt, _⟩ := read_holds ⟨rfl, rfl, rfl⟩ hread
  refine ⟨hsalt.trans hinv.salt, hsent ▸ hinv.clientSent, hinv.serverSent, k, hk, ?_⟩
  rcases hjoint with ⟨hcl, hsv, hp⟩ | ⟨p, hne, hmem, hcl, hnone, hsv⟩ |
    ⟨nxt, secret, hsv, hne, hderive, hnext, hfresh, hp⟩
  · exact .agreed (hcl.read hread) hsv hp
  · obtain ⟨_, _, _, ⟨_, h₂⟩ | ⟨hkey, _⟩⟩ := read_double hcl hread
    · exact .switched p hne hmem h₂ hnone hsv
    · -- the server has not sent under `k` yet
      exact absurd hkey (hnone pkt hpkt)
  · refine .installed nxt secret hsv hne hderive hnext ⟨hsent ▸ hfresh.1, hfresh.2⟩ ?_
    rcases hp with ⟨q, hp, hkey, hr⟩ | ⟨⟨p, h₁⟩, _⟩ | ⟨h₁, hp⟩
    · exact .inl ⟨q, hp, hkey, hr.read hread⟩
    · exact absurd hread (read_pending h₁)
    · exact .inr (.inr ⟨(read_single h₁ hread).2.2.2, hp⟩)

/-- A data packet from the client: none is sealed under a key that only the server has. -/
theorem serverRead_inv (hpkt : pkt ∈ s.client.sent) (hread : s.server.read L pkt false = some c) :
    Inv L { s with server := c } := by
  obtain ⟨k, hk, hjoint⟩ := hinv.joint
  obtain ⟨_, hsent, hsalt, _⟩ := read_holds ⟨rfl, rfl, rfl⟩ hread
  refine ⟨hinv.salt.trans hsalt.symm, hinv.clientSent, hsent ▸ hinv.serverSent, k, hk, ?_⟩
  rcases hjoint with ⟨hcl, hsv, hp⟩ | ⟨p, hne, hmem, hcl, hnone, hsv⟩ |
    ⟨nxt, secret, hsv, hne, hderive, hnext, hfresh, hp⟩
  · exact .agreed hcl (read_single hsv hread).2.2.2 hp
  · refine .switched p hne hmem hcl (hsent ▸ hnone) ?_
    rcases hsv with ⟨h₁ | h₁, hp⟩ | ⟨h₁, _⟩
    · obtain ⟨_, _, _, ⟨_, h₂⟩ | ⟨_, h₂⟩⟩ := read_double h₁ hread
      · exact .inl ⟨.inl h₂, hp⟩
      · exact .inl ⟨.inr h₂, hp⟩
    · exact absurd hread (read_pending h₁)
    · exact absurd hread (read_pending h₁)
  · obtain ⟨_, _, _, ⟨_, h₂⟩ | ⟨hkey, _⟩⟩ := read_double hsv hread
    · exact .installed nxt secret h₂ hne (hsalt ▸ hderive) hnext
        ⟨hfresh.1, hsent ▸ hfresh.2⟩ hp
    · -- the client has not sent under the next key yet
      exact absurd hkey (hfresh.1 pkt hpkt)

omit [DecidableEq Key] in
theorem clientFinish_inv {rekey : Bool} (hfinish : s.client.finish = some (rekey, c)) :
    Inv L { s with client := c, phase := if rekey then s.phase.readDone else s.phase } := by
  obtain ⟨k, hk, hjoint⟩ := hinv.joint
  -- only a side with two keys has a promotion to finish
  have hfields : ∀ {p r}, s.client.Holds [p, k] 1 (some { idx := 1, rekey := r }) →
      rekey = r ∧ c.sent = s.client.sent ∧ c.crypto.keySalt = s.client.crypto.keySalt ∧
        c.Holds [k] 0 none := fun h₁ => finish_double h₁ hfinish
  have hready : Ready s.client k → rekey = false ∧ c.sent = s.client.sent ∧
      c.crypto.keySalt = s.client.crypto.keySalt ∧ c.Holds [k] 0 none := by
    intro hr
    rcases hr with h₁ | ⟨p, _, h₁⟩ | ⟨p, _, h₁⟩
    · exact absurd hfinish (finish_none h₁)
    · exact absurd hfinish (finish_none h₁)
    · exact hfields h₁
  rcases hjoint with ⟨hcl, hsv, hp⟩ | ⟨p, _, _, hcl, _, _⟩ |
    ⟨nxt, secret, hsv, hne, hderive, hnext, hfresh, hp⟩
  · obtain ⟨rfl, hsent, hsalt, hone⟩ := hready hcl
    exact ⟨hsalt.trans hinv.salt, hsent ▸ hinv.clientSent, hinv.serverSent, k, hk,
      .agreed (.one hone) hsv hp⟩
  · exact absurd hfinish (finish_none hcl)
  · rcases hp with ⟨q, hp, hkey, hr⟩ | ⟨⟨p, h₁⟩, hp⟩ | ⟨h₁, _⟩
    · obtain ⟨rfl, hsent, hsalt, hone⟩ := hready hr
      exact ⟨hsalt.trans hinv.salt, hsent ▸ hinv.clientSent, hinv.serverSent, k, hk,
        .installed nxt secret hsv hne hderive hnext ⟨hsent ▸ hfresh.1, hfresh.2⟩
          (.inl ⟨q, hp, hkey, .one hone⟩)⟩
    · obtain ⟨rfl, hsent, hsalt, hone⟩ := hfields h₁
      exact ⟨hsalt.trans hinv.salt, hsent ▸ hinv.clientSent, hinv.serverSent, k, hk,
        .installed nxt secret hsv hne hderive hnext ⟨hsent ▸ hfresh.1, hfresh.2⟩
          (.inr (.inr ⟨hone, by simp [hp, Phase.readDone]⟩))⟩
    · exact absurd hfinish (finish_none h₁)

omit [DecidableEq Key] in
theorem serverFinish_inv {rekey : Bool} (hfinish : s.server.finish = some (rekey, c)) :
    Inv L { s with server := c, phase := if rekey then s.phase.readDone else s.phase } := by
  obtain ⟨k, hk, hjoint⟩ := hinv.joint
  rcases hjoint with ⟨_, hsv, _⟩ | ⟨p, hne, _, hcl, _, hsv⟩ | ⟨_, _, hsv, _, _, _, _, _⟩
  · exact absurd hfinish (finish_none hsv)
  · rcases hsv with ⟨h₁ | h₁, hp⟩ | ⟨h₁, hp⟩
    · exact absurd hfinish (finish_none h₁)
    · obtain ⟨rfl, hsent, hsalt, hone⟩ := finish_double h₁ hfinish
      exact ⟨hinv.salt.trans hsalt.symm, hinv.clientSent, hsent ▸ hinv.serverSent, k, hk,
        .agreed (.two p hne hcl) hone (.inl hp)⟩
    · obtain ⟨rfl, hsent, hsalt, hone⟩ := finish_double h₁ hfinish
      exact ⟨hinv.salt.trans hsalt.symm, hinv.clientSent, hsent ▸ hinv.serverSent, k, hk,
        .agreed (.two p hne hcl) hone (.inr (by simp [hp, Phase.readDone]))⟩
  · exact absurd hfinish (finish_none hsv)

/-! ### Rekeying -/

omit [DecidableEq Key] in
theorem startRekey_inv {nonce msg : Bytes} (hstep : startRekey s nonce msg = some s') :
    Inv L s' := by
  unfold startRekey at hstep
  split at hstep
  · next hidle =>
    obtain ⟨⟨pkt, c⟩, hsend, rfl⟩ := Option.map_eq_some_iff.mp hstep
    -- the flag `rekeyInFlight` is no part of the invariant
    have hflag : Inv L { s with client :=
        { s.client with crypto := { s.client.crypto with rekeyInFlight := true } } } := by
      obtain ⟨k, hk, hjoint⟩ := hinv.joint
      exact ⟨hinv.salt, hinv.clientSent, hinv.serverSent, k, hk,
        hjoint.frame (fun _ _ _ hh => ⟨hh.list, hh.idx, hh.opening⟩) (fun _ _ _ hh => hh)
          rfl rfl rfl (fun _ hq => .inl hq) (fun _ hq => .inl hq)⟩
    obtain ⟨hinv', k, hk, hkey, hjoint⟩ := clientSend_inv hflag hsend
    refine ⟨hinv'.salt, hinv'.clientSent, hinv'.serverSent, k, hk, ?_⟩
    have hpending : (Phase.requestSent pkt).Pending k := .inr ⟨pkt, rfl, hkey⟩
    rcases hjoint with ⟨hcl, hsv, _⟩ | ⟨p, hne, hmem, hcl, hnone, hsv⟩ |
      ⟨_, _, _, _, _, _, _, hp⟩
    · exact .agreed hcl hsv (.inl hpending)
    · rcases hsv with ⟨h₁, _⟩ | ⟨_, hp⟩
      · exact .switched p hne hmem hcl hnone (.inl ⟨h₁, hpending⟩)
      · exact absurd (hidle.symm.trans hp) (by simp)
    · rcases hp with ⟨q, hp, _⟩ | ⟨_, hp⟩ | ⟨_, hp⟩ <;>
        exact absurd (hidle.symm.trans hp) (by simp)
  · cases hstep

/-- Reading the request leaves the server with `k` alone, at once or after the promotion. -/
theorem readRequest_inv (hstep : readRequest L s = some s') : Inv L s' := by
  unfold readRequest at hstep
  split at hstep
  · next pkt hphase =>
    obtain ⟨c, hread, rfl⟩ := Option.map_eq_some_iff.mp hstep
    obtain ⟨k, hk, hjoint⟩ := hinv.joint
    obtain ⟨_, hsent, hsalt, _⟩ := read_holds ⟨rfl, rfl, rfl⟩ hread
    refine ⟨hinv.salt.trans hsalt.symm, hinv.clientSent, hsent ▸ hinv.serverSent, k, hk, ?_⟩
    have hkey : s.phase.Pending k → pkt.key = k := by
      intro hp
      rcases hp with hp | ⟨q, hp, hq⟩
      · exact absurd (hphase.symm.trans hp) (by simp)
      · rw [hphase, Phase.requestSent.injEq] at hp
        exact hp ▸ hq
    rcases hjoint with ⟨hcl, hsv, _⟩ | ⟨p, hne, hmem, hcl, hnone, hsv⟩ |
      ⟨_, _, _, _, _, _, _, hp⟩
    · have hone := (read_single hsv hread).2.2.2
      exact .agreed hcl hone (.inr (by simp [hone.opening]))
    · rcases hsv with ⟨h₁ | h₁, hp⟩ | ⟨_, hp⟩
      · obtain ⟨_, _, _, ⟨hold, _⟩ | ⟨_, h₂⟩⟩ := read_double h₁ hread
        · -- the request is sealed under `k`, so the old key does not open it
          exact absurd (hold.symm.trans (hkey hp)) hne
        · exact .switched p hne hmem hcl (hsent ▸ hnone) (.inr ⟨h₂, by simp [h₂.opening]⟩)
      · exact absurd hread (read_pending h₁)
      · exact absurd (hphase.symm.trans hp) (by simp)
    · rcases hp with ⟨q, hp, _⟩ | ⟨_, hp⟩ | ⟨_, hp⟩ <;>
        exact absurd (hphase.symm.trans hp) (by simp)
  · cases hstep

theorem handleRequest_inv {now : Nat} {secret nonce msg : Bytes}
    (hstep : handleRequest L s now secret nonce msg = some s') : Inv L s' := by
  unfold handleRequest at hstep
  split at hstep
  · next k' r hphase hderive hinstall =>
    split at hstep
    · cases hstep
    · next hnew =>
      obtain ⟨⟨pkt, c⟩, hsend, rfl⟩ := Option.map_eq_some_iff.mp hstep
      obtain ⟨k, hk, hjoint⟩ := hinv.joint
      have hne : k' ≠ k := fun heq => hnew (heq ▸ hk)
      obtain ⟨k'', hderive', hlist, hidx, _, _, hsalt, _⟩ := RotatingCrypto.installKey_ok hinstall
      obtain rfl : k' = k'' := by rw [hderive, Except.ok.injEq] at hderive'; exact hderive'
      rcases hjoint with ⟨hcl, hsv, _⟩ | ⟨_, _, _, _, _, hsv⟩ | ⟨_, _, _, _, _, _, _, hp⟩
      · -- the answer is still sealed under `k`
        have hinst : Party.Holds { s.server with crypto := r } [k, k'] 0 none :=
          ⟨by simp [hlist, hsv.list], by simp [hidx, hsv.idx], hsv.opening⟩
        obtain ⟨hsv', hkey, hsent, hsalt'⟩ := send_holds hinst hsend
        have hpkt : pkt.key = k := by simpa using hkey.symm
        have hserver : ∀ q ∈ c.sent, q.key ∈ s.keys := by
          intro q hq
          rw [hsent, List.mem_append, List.mem_singleton] at hq
          rcases hq with hold | heq
          · exact hinv.serverSent q hold
          · rw [heq, hpkt]
            exact hk
        refine ⟨hinv.salt.trans (hsalt'.trans hsalt).symm,
          fun q hq => List.mem_append_left _ (hinv.clientSent q hq),
          fun q hq => List.mem_append_left _ (hserver q hq), k, List.mem_append_left _ hk, ?_⟩
        refine .installed k' secret hsv' hne ?_ (by simp) ⟨?_, ?_⟩ (.inl ⟨pkt, rfl, hpkt, hcl⟩)
        · show L.deriveKey secret c.crypto.keySalt = .ok k'
          rw [hsalt'.trans hsalt, hderive]
        · intro q hq heq
          exact hnew (heq ▸ hinv.clientSent q hq)
        · intro q hq heq
          exact hnew (heq ▸ hserver q hq)
      · rcases hsv with ⟨_, hp | ⟨q, hp, _⟩⟩ | ⟨_, hp⟩ <;>
          exact absurd (hphase.symm.trans hp) (by simp)
      · rcases hp with ⟨q, hp, _⟩ | ⟨_, hp⟩ | ⟨_, hp⟩ <;>
          exact absurd (hphase.symm.trans hp) (by simp)
  · cases hstep

/-- The response is sealed under `k`, so reading it leaves the client with `k` alone. -/
theorem readResponse_inv (hstep : readResponse L s = some s') : Inv L s' := by
  unfold readResponse at hstep
  split at hstep
  · next pkt secret hphase =>
    obtain ⟨c, hread, rfl⟩ := Option.map_eq_some_iff.mp hstep
    obtain ⟨k, hk, hjoint⟩ := hinv.joint
    obtain ⟨_, hsent, hsalt, _⟩ := read_holds ⟨rfl, rfl, rfl⟩ hread
    refine ⟨hsalt.trans hinv.salt, hsent ▸ hinv.clientSent, hinv.serverSent, k, hk, ?_⟩
    rcases hjoint with ⟨_, _, (hp | ⟨q, hp, _⟩) | hp⟩ |
      ⟨_, _, _, _, _, ⟨_, hp | ⟨q, hp, _⟩⟩ | ⟨_, hp⟩⟩ |
      ⟨nxt, secret', hsv, hne, hderive, hnext, hfresh, ⟨q, hp, hkey, hr⟩ | ⟨_, hp⟩ | ⟨_, hp⟩⟩
    case installed.inl =>
      rw [hphase, Phase.responseSent.injEq] at hp
      obtain ⟨rfl, rfl⟩ := hp
      refine .installed nxt secret hsv hne hderive hnext ⟨hsent ▸ hfresh.1, hfresh.2⟩ (.inr ?_)
      rcases hr with h₁ | ⟨p, hpk, h₁⟩ | ⟨p, _, h₁⟩
      · have hone := (read_single h₁ hread).2.2.2
        exact .inr ⟨hone, by simp [hone.opening]⟩
      · obtain ⟨_, _, _, ⟨hold, _⟩ | ⟨_, h₂⟩⟩ := read_double h₁ hread
        · exact absurd (hold.symm.trans hkey) hpk
        · exact .inl ⟨⟨p, h₂⟩, by simp [h₂.opening]⟩
      · exact absurd hread (read_pending h₁)
    -- in every other joint state the phase is a different one
    all_goals exact absurd (hphase.symm.trans hp) (by simp)
  · cases hstep

omit [DecidableEq Key] in
theorem handleResponse_inv {now : Nat} (hstep : handleResponse L s now = some s') :
    Inv L s' := by
  unfold handleResponse at hstep
  split at hstep
  · next secret hphase =>
    split at hstep
    · next r hinstall =>
      cases hstep
      obtain ⟨k, hk, hjoint⟩ := hinv.joint
      obtain ⟨k', hderive', hlist, hidx, _, _, hsalt, _⟩ := RotatingCrypto.installKey_ok hinstall
      rcases hjoint with ⟨_, _, (hp | ⟨q, hp, _⟩) | hp⟩ |
        ⟨_, _, _, _, _, ⟨_, hp | ⟨q, hp, _⟩⟩ | ⟨_, hp⟩⟩ |
        ⟨nxt, secret', hsv, hne, hderive, hnext, hfresh, ⟨q, hp, _⟩ | ⟨_, hp⟩ | ⟨hcl, hp⟩⟩
      case installed.inr.inr =>
        -- the new key becomes the one the client sends under, and `k` the old one
        rw [hphase, Phase.responseOpened.injEq] at hp
        subst hp
        have heq : k' = nxt := by
          rw [hinv.salt, hderive, Except.ok.injEq] at hderive'
          exact hderive'.symm
        subst heq
        refine ⟨hsalt.trans hinv.salt, hinv.clientSent, hinv.serverSent, k', hnext, ?_⟩
        exact .switched k hne.symm hk
          ⟨by simp [hlist, hcl.list], by simp [hidx, hcl.list], hcl.opening⟩ hfresh.2
          (.inl ⟨.inl hsv, .inl rfl⟩)
      all_goals exact absurd (hphase.symm.trans hp) (by simp)
    · cases hstep
  · cases hstep

/-- **One step keeps the invariant.** -/
theorem next_inv {l : Label} (hstep : next L s l = some s') : Inv L s' := by
  match l with
  | .clientSend nonce p =>
    obtain ⟨⟨_, c⟩, hsend, rfl⟩ := Option.map_eq_some_iff.mp hstep
    exact (clientSend_inv hinv hsend).1
  | .serverSend nonce p =>
    obtain ⟨⟨_, c⟩, hsend, rfl⟩ := Option.map_eq_some_iff.mp hstep
    exact serverSend_inv hinv hsend
  | .clientRead i =>
    obtain ⟨pkt, hpkt, hmap⟩ := Option.bind_eq_some_iff.mp hstep
    obtain ⟨c, hread, rfl⟩ := Option.map_eq_some_iff.mp hmap
    exact clientRead_inv hinv (List.mem_of_getElem? hpkt) hread
  | .serverRead i =>
    obtain ⟨pkt, hpkt, hmap⟩ := Option.bind_eq_some_iff.mp hstep
    obtain ⟨c, hread, rfl⟩ := Option.map_eq_some_iff.mp hmap
    exact serverRead_inv hinv (List.mem_of_getElem? hpkt) hread
  | .clientFinish =>
    obtain ⟨⟨rekey, c⟩, hfinish, rfl⟩ := Option.map_eq_some_iff.mp hstep
    exact clientFinish_inv hinv hfinish
  | .serverFinish =>
    obtain ⟨⟨rekey, c⟩, hfinish, rfl⟩ := Option.map_eq_some_iff.mp hstep
    exact serverFinish_inv hinv hfinish
  | .startRekey _ _ => exact startRekey_inv hinv hstep
  | .readRequest => exact readRequest_inv hinv hstep
  | .handleRequest _ _ _ _ => exact handleRequest_inv hinv hstep
  | .readResponse => exact readResponse_inv hinv hstep
  | .handleResponse _ => exact handleResponse_inv hinv hstep

end

theorem protocol_inv (hs : (protocol L).Reachable s) : Inv L s := by
  refine System.invariant (protocol L) ?_ (fun s l s' hinv hstep => next_inv hinv hstep) hs
  intro s ⟨now, pass, salt, bytesThreshold, timeThreshold, now', k, hc, hsv, hk, hkeys, hco, hcs,
    hso, hss, hphase⟩
  -- both sides have derived the same key
  obtain ⟨kc, hkc, hclist, hcidx, _, _, hcsalt⟩ := RotatingCrypto.new_ok hc
  obtain ⟨ks, hks, hslist, hsidx, _, _, hssalt⟩ := RotatingCrypto.new_ok hsv
  obtain rfl : k = kc := Except.ok.inj (hk.symm.trans hkc)
  obtain rfl : k = ks := Except.ok.inj (hk.symm.trans hks)
  refine ⟨hcsalt.trans hssalt.symm, by simp [hcs], by simp [hss], k, by simp [hkeys], ?_⟩
  exact .agreed (.one ⟨hclist, hcidx, hco⟩) ⟨hslist, hsidx, hso⟩ (.inl (.inl hphase))

/-! ## The two sides always understand each other -/

omit [DecidableEq Key] in
theorem Joint.bounded (h : Joint L s k) :
    k ∈ s.server.crypto.gcmList ∧ s.client.crypto.gcmList.length ≤ 2 ∧
      s.server.crypto.gcmList.length ≤ 2 := by
  have hclient : s.client.crypto.gcmList.length ≤ 2 := by
    rcases h.client_keys with ⟨hlist, _⟩ | ⟨p, hlist, _⟩ <;> simp [hlist]
  obtain ⟨_, hlist | ⟨nxt, hlist⟩ | ⟨p, _, hlist, _⟩⟩ := h.server_keys <;>
    exact ⟨by simp [hlist], hclient, by simp [hlist]⟩

end Invariant

/-- **Common keys.**  In every reachable state both sides have an active key, each side has
    the key the other one sends under, and no list holds more than two keys. -/
theorem rekey_keeps_common_keys {s : State Key} (hs : (protocol L).Reachable s) :
    ∃ kc ks, s.client.crypto.gcmList[s.client.crypto.activeIdx]? = some kc ∧
      s.server.crypto.gcmList[s.server.crypto.activeIdx]? = some ks ∧
      kc ∈ s.server.crypto.gcmList ∧ ks ∈ s.client.crypto.gcmList ∧
      s.client.crypto.gcmList.length ≤ 2 ∧ s.server.crypto.gcmList.length ≤ 2 := by
  obtain ⟨k, hk, hjoint⟩ := (protocol_inv hs).joint
  obtain ⟨ks, _, hks, hclient⟩ := hjoint.server_active hk
  obtain ⟨hserver, hlen, hlen'⟩ := hjoint.bounded
  exact ⟨k, ks, hjoint.client_active, hks, hserver, hclient, hlen, hlen'⟩

/-- Both sides as they start, with the one-byte cipher and key `1`. -/
def keyOneStart : State UInt8 :=
  { client := { crypto := RotatingCrypto.underKeyOne false, opening := none, sent := [] }
    server := { crypto := RotatingCrypto.underKeyOne false, opening := none, sent := [] }
    phase := .idle
    keys := [1] }

/-- One rekey to key `2`, up to the point where the server has found the first packet under
    the new key and has not dropped the old one. -/
def rekeyToTwo : List Label :=
  [.startRekey [] [], .readRequest, .handleRequest 7 [2] [] [], .readResponse, .handleResponse 7,
    .clientSend [] [65], .serverRead 1]

theorem keyOneStart_init : (protocol RotatingCrypto.xorLib).init keyOneStart :=
  ⟨0, [1], [], 0, 0, 0, 1, rfl, rfl, rfl, rfl, rfl, rfl, rfl, rfl, rfl⟩

theorem rekey_keeps_common_keys_during_switch :
    ∃ s, runLabels (next RotatingCrypto.xorLib) keyOneStart rekeyToTwo = some s ∧
      s.server.opening = some { idx := 1, rekey := false } ∧
      ∃ kc ks, s.client.crypto.gcmList[s.client.crypto.activeIdx]? = some kc ∧
        s.server.crypto.gcmList[s.server.crypto.activeIdx]? = some ks ∧
        kc ∈ s.server.crypto.gcmList ∧ ks ∈ s.client.crypto.gcmList ∧
        s.client.crypto.gcmList.length ≤ 2 ∧ s.server.crypto.gcmList.length ≤ 2 := by
  have hrun : ∃ s, runLabels (next RotatingCrypto.xorLib) keyOneStart rekeyToTwo = some s ∧
      s.server.opening = some { idx := 1, rekey := false } := ⟨_, rfl, rfl⟩
  obtain ⟨s, hs, hopening⟩ := hrun
  have hreach : (protocol RotatingCrypto.xorLib).Reachable s :=
    .of_runLabels (fun _ _ _ h => h) (.init keyOneStart_init) hs
  exact ⟨s, hs, hopening, rekey_keeps_common_keys RotatingCrypto.xorLib hreach⟩

end Rekey
