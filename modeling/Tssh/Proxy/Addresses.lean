import Tssh.Framework.Index
import Tssh.Proxy.Server

/-! # Which Client an Address Belongs To

    The UDP front end finds the client of a datagram through a one-entry cache and
    two maps, which `setClientAddr` and `setAuthedAddr` keep up to date.  Here every
    iteration of `readFrom`, every `initConn` and every timeout cleanup is one
    atomic step.

    * `AddrInv`: the maps are the inverse of the clients' addresses.
    * `getClient_eq_scan`: the lookup is a scan over all known clients, and no
      address is used twice.
-/

open Go Index LTS Prog

namespace Proxy

variable {Key : Type} (P : ServerProxy Key)

/-! ## Steps -/

inductive UdpStep where
  | readFrom (d : Datagram)
  | initConn (auth : Option (Datagram × UInt64 × UInt64))
  | clearTransport (c : UInt64) (flagged : Nat)

def UdpStep.prog : UdpStep → Prog State Unit
  | .readFrom d => do let _ ← Proxy.readFrom P d
  | .initConn auth => Proxy.initConn P auth
  | .clearTransport c flagged => Proxy.clearTransport P c flagged

/-- The UDP front end in steps that do not interleave. -/
def udpFrontend : System State UdpStep :=
  System.ofStep {} (fun s l => some ((l.prog P).run s).2)

/-! ## The specification of the lookup -/

inductive Role where
  | client
  | authed
  deriving DecidableEq, Repr

/-- The address that a client has in a role. -/
def ClientState.addr (client : ClientState) : Role → Option UDPAddr
  | .client => client.clientAddr.map (·.addr)
  | .authed => client.authedAddr.map (·.addr)

def State.addrOf (s : State) (role : Role) (c : UInt64) : Option UDPAddr := (s.clients c).addr role

/-- The map that serves the lookup of a role. -/
def State.mapOf (s : State) : Role → UDPAddr → Option UInt64
  | .client => s.clientMap
  | .authed => s.authedMap

/-- Look through all known clients: first for one that is active on `addr`, then for one that
    is authenticated from it. -/
def State.scan (s : State) (addr : UDPAddr) : Lookup :=
  match s.known.find? (fun c => s.addrOf .client c = some addr) with
  | some c => .active c
  | none =>
    match s.known.find? (fun c => s.addrOf .authed c = some addr) with
    | some c => .authed c
    | none => .unknown

/-! ## What the setters do -/

section Setters

variable {P} {s : State} {c : UInt64}

theorem isSameAddr_iff {a : Option AddrRef} {addr : UDPAddr} :
    isSameAddr a addr = true ↔ a.map (·.addr) = some addr := by
  cases a with
  | none => simp [isSameAddr]
  | some a =>
    obtain ⟨⟨ip, port, zone⟩, _⟩ := a
    obtain ⟨ip', port', zone'⟩ := addr
    simp [isSameAddr]
    tauto

theorem run_addAuthedMap (c : UInt64) :
    ((addAuthedMap P c).run s).2 = { s with
      authedMap := if P.attachable then
          match (s.clients c).authedAddr with
          | none => s.authedMap
          | some r => Function.update s.authedMap r.addr (some c)
        else s.authedMap } := by
  unfold addAuthedMap
  split
  · cases h : (s.clients c).authedAddr <;> simp [h]
  · rfl

theorem run_delAuthedMap (addr : UDPAddr) :
    ((delAuthedMap P addr).run s).2 = { s with
      authedMap := if P.attachable then Function.update s.authedMap addr none
        else s.authedMap } := by
  unfold delAuthedMap
  split <;> rfl

theorem run_addClientMap (c : UInt64) :
    ((addClientMap P c).run s).2 = { s with
      clientMap := if P.attachable then
          match (s.clients c).clientAddr with
          | none => s.clientMap
          | some r => Function.update s.clientMap r.addr (some c)
        else s.clientMap } := by
  unfold addClientMap
  split
  · cases h : (s.clients c).clientAddr <;> simp [h]
  · rfl

theorem run_delClientMap (addr : UDPAddr) :
    ((delClientMap P addr).run s).2 = { s with
      clientMap := if P.attachable then Function.update s.clientMap addr none
        else s.clientMap } := by
  unfold delClientMap
  split <;> rfl

/-- `setAuthedAddr` swaps the address and, in attachable mode with a front end, moves the
    entry of the map. -/
theorem run_setAuthedAddr (c : UInt64) (addr : Option AddrRef) (flagged : Option Nat) :
    ((setAuthedAddr P c addr flagged).run s).2 = { (State.swapAuthedAddr c addr flagged s).2 with
      authedMap := if P.attachable ∧ (s.clients c).udpFrontConn then
          moveEntry s.authedMap c (s.addrOf .authed c) (addr.map (·.addr))
        else s.authedMap } := by
  cases hatt : P.attachable <;> cases hfront : (s.clients c).udpFrontConn <;> cases addr <;>
    cases hold : (s.clients c).authedAddr <;>
    simp [setAuthedAddr, run_addAuthedMap, run_delAuthedMap, hatt, hfront, hold, moveEntry,
      State.addrOf, ClientState.addr, State.swapAuthedAddr, State.modifyClient]

theorem run_setClientAddr (c : UInt64) (addr : Option AddrRef) (flagged : Option Nat) :
    ((setClientAddr P c addr flagged).run s).2 = { (State.swapClientAddr c addr flagged s).2 with
      clientMap := if P.attachable ∧ (s.clients c).udpFrontConn then
          moveEntry s.clientMap c (s.addrOf .client c) (addr.map (·.addr))
        else s.clientMap } := by
  cases hatt : P.attachable <;> cases hfront : (s.clients c).udpFrontConn <;> cases addr <;>
    cases hold : (s.clients c).clientAddr <;>
    simp [setClientAddr, run_addClientMap, run_delClientMap, hatt, hfront, hold, moveEntry,
      State.addrOf, ClientState.addr, State.swapClientAddr, State.modifyClient]

end Setters

/-! ## The invariant -/

/-- The maps and the clients in attachable mode. -/
structure MapInv (s : State) : Prop where
  /-- A client with an address has a front end, which keeps its map entries. -/
  front : ∀ role c, s.addrOf role c ≠ none → (s.clients c).udpFrontConn = true
  known : ∀ role c, s.addrOf role c ≠ none → c ∈ s.known
  index : ∀ role, IsIndex (s.mapOf role) (s.addrOf role)
  /-- Before there is a connection no client has an address. -/
  closed : s.conn = false → ∀ role c, s.addrOf role c = none

/-- No address is active for one client and authenticated for one, even the same. -/
structure AddrInv (s : State) : Prop extends MapInv s where
  disjoint : ∀ c c' a, s.addrOf .client c = some a → s.addrOf .authed c' ≠ some a

section Invariant

variable {P} {s s' : State} {c : UInt64}

theorem addrOf_update (client : ClientState)
    (h : s'.clients = Function.update s.clients c client) (role : Role) :
    s'.addrOf role = Function.update (s.addrOf role) c (client.addr role) := by
  funext c'
  unfold State.addrOf
  rw [h]
  by_cases hc : c' = c
  · rw [hc, Function.update_self, Function.update_self]
  · rw [Function.update_of_ne hc, Function.update_of_ne hc]

/-- A step that changes no address keeps the invariant. -/
theorem AddrInv.frame (h : AddrInv s) (haddr : ∀ role, s'.addrOf role = s.addrOf role)
    (hfront : ∀ c, (s.clients c).udpFrontConn = true → (s'.clients c).udpFrontConn = true)
    (hknown : s.known ⊆ s'.known) (hmap : ∀ role, s'.mapOf role = s.mapOf role)
    (hconn : s.conn = true → s'.conn = true) : AddrInv s' where
  front := fun role c hne => hfront c (h.front role c (haddr role ▸ hne))
  known := fun role c hne => hknown (h.known role c (haddr role ▸ hne))
  index := by
    intro role
    rw [hmap, haddr]
    exact h.index role
  closed := by
    intro hclosed role c
    have hopen : s.conn = false := by
      cases hs : s.conn with
      | false => rfl
      | true => rw [hconn hs] at hclosed; cases hclosed
    rw [haddr]
    exact h.closed hopen role c
  disjoint := by
    rw [haddr, haddr]
    exact h.disjoint

/-! ### Changing one address -/

/-- The address of `c` in `role` becomes `new`, and the map follows. -/
structure SetRole (role : Role) (c : UInt64) (new : Option UDPAddr) (s s' : State) : Prop where
  addr : s'.addrOf role = Function.update (s.addrOf role) c new
  otherAddr : ∀ role', role' ≠ role → s'.addrOf role' = s.addrOf role'
  map : s'.mapOf role = moveEntry (s.mapOf role) c (s.addrOf role c) new
  otherMap : ∀ role', role' ≠ role → s'.mapOf role' = s.mapOf role'
  front : ∀ c', (s'.clients c').udpFrontConn = (s.clients c').udpFrontConn
  known : s'.known = s.known
  conn : s'.conn = s.conn

/-- A client without a front end has no address, so its map entries need no change. -/
theorem moveEntry_front {m : UDPAddr → Option UInt64} {old new : Option UDPAddr} {front : Bool}
    (hatt : P.attachable = true) (hold : old ≠ none → front = true)
    (hnew : new ≠ none → front = true) :
    (if P.attachable ∧ front then moveEntry m c old new else m) = moveEntry m c old new := by
  cases front with
  | true => simp [hatt]
  | false =>
    have hold' : old = none := by_contra fun hne => absurd (hold hne) (by simp)
    have hnew' : new = none := by_contra fun hne => absurd (hnew hne) (by simp)
    rw [hold', hnew']
    simp [moveEntry]

variable {role : Role} {new : Option UDPAddr} {a : UDPAddr} {d : Datagram}

/-- A state that differs from `s` in one address of client `c` and in the map of its role. -/
theorem SetRole.of_update (client : ClientState)
    (hclients : s'.clients = Function.update s.clients c client) (hnew : client.addr role = new)
    (hother : ∀ role', role' ≠ role →
      client.addr role' = s.addrOf role' c ∧ s'.mapOf role' = s.mapOf role')
    (hmap : s'.mapOf role = moveEntry (s.mapOf role) c (s.addrOf role c) new)
    (hfront : client.udpFrontConn = (s.clients c).udpFrontConn) (hknown : s'.known = s.known)
    (hconn : s'.conn = s.conn) : SetRole role c new s s' where
  addr := by rw [addrOf_update client hclients role, hnew]
  otherAddr := by
    intro role' hrole
    rw [addrOf_update client hclients role', (hother role' hrole).1, Function.update_eq_self]
  map := hmap
  otherMap := fun role' hrole => (hother role' hrole).2
  front := by
    intro c'
    rw [hclients, Function.update_apply]
    split
    · next hc => rw [hfront, hc]
    · rfl
  known := hknown
  conn := hconn

theorem setAuthedAddr_setRole (h : MapInv s) (hatt : P.attachable = true) (addr : Option AddrRef)
    (hfront : addr.map (·.addr) ≠ none → (s.clients c).udpFrontConn = true)
    (flagged : Option Nat) :
    SetRole .authed c (addr.map (·.addr)) s ((setAuthedAddr P c addr flagged).run s).2 := by
  rw [run_setAuthedAddr, moveEntry_front hatt (h.front .authed c) hfront]
  apply SetRole.of_update { s.clients c with authedAddr := addr } rfl rfl
  · intro role' hrole
    cases role' with
    | authed => exact absurd rfl hrole
    | client => exact ⟨rfl, rfl⟩
  all_goals rfl

theorem setClientAddr_setRole (h : MapInv s) (hatt : P.attachable = true) (addr : Option AddrRef)
    (hfront : addr.map (·.addr) ≠ none → (s.clients c).udpFrontConn = true)
    (flagged : Option Nat) :
    SetRole .client c (addr.map (·.addr)) s ((setClientAddr P c addr flagged).run s).2 := by
  rw [run_setClientAddr, moveEntry_front hatt (h.front .client c) hfront]
  apply SetRole.of_update { s.clients c with clientAddr := addr } rfl rfl
  · intro role' hrole
    cases role' with
    | client => exact absurd rfl hrole
    | authed => exact ⟨rfl, rfl⟩
  all_goals rfl

/-- **The maps stay indexes** under a change to an address that nobody has in that role. -/
theorem MapInv.setRole (h : MapInv s) (hset : SetRole role c new s s')
    (hnew : ∀ a, new = some a → (s.clients c).udpFrontConn = true ∧ c ∈ s.known ∧
      s.conn = true ∧ ∀ c', s.addrOf role c' ≠ some a) : MapInv s' := by
  -- an address in the new state is the new one or an old one
  have hcases : ∀ role' c', s'.addrOf role' c' ≠ none →
      (c' = c ∧ new ≠ none) ∨ s.addrOf role' c' ≠ none := by
    intro role' c' hne
    by_cases hrole : role' = role
    · subst hrole
      rw [hset.addr, Function.update_apply] at hne
      split at hne
      · next hc => exact .inl ⟨hc, hne⟩
      · exact .inr hne
    · rw [hset.otherAddr role' hrole] at hne
      exact .inr hne
  refine ⟨?_, ?_, ?_, ?_⟩
  · intro role' c' hne
    rw [hset.front]
    rcases hcases role' c' hne with ⟨rfl, hsome⟩ | hold
    · obtain ⟨a, ha⟩ := Option.ne_none_iff_exists'.mp hsome
      exact (hnew a ha).1
    · exact h.front role' c' hold
  · intro role' c' hne
    rw [hset.known]
    rcases hcases role' c' hne with ⟨rfl, hsome⟩ | hold
    · obtain ⟨a, ha⟩ := Option.ne_none_iff_exists'.mp hsome
      exact (hnew a ha).2.1
    · exact h.known role' c' hold
  · intro role'
    by_cases hrole : role' = role
    · subst hrole
      rw [hset.map, hset.addr]
      exact (h.index role').move c (fun a ha => (hnew a ha).2.2.2)
    · rw [hset.otherMap role' hrole, hset.otherAddr role' hrole]
      exact h.index role'
  · intro hclosed role' c'
    rw [hset.conn] at hclosed
    by_contra hne
    rcases hcases role' c' hne with ⟨rfl, hsome⟩ | hold
    · obtain ⟨a, ha⟩ := Option.ne_none_iff_exists'.mp hsome
      rw [(hnew a ha).2.2.1] at hclosed
      cases hclosed
    · exact hold (h.closed hclosed role' c')

/-- An address that is not the new one was there before. -/
theorem SetRole.addr_old {role role' : Role} {c' : UInt64} (hset : SetRole role c new s s')
    (ha : s'.addrOf role' c' = some a) (hne : role' = role → new ≠ some a) :
    s.addrOf role' c' = some a := by
  by_cases hrole : role' = role
  · subst hrole
    rw [hset.addr, Function.update_apply] at ha
    split at ha
    · exact absurd ha (hne rfl)
    · exact ha
  · rw [hset.otherAddr role' hrole] at ha
    exact ha

/-- Clearing an address. -/
theorem AddrInv.clear (h : AddrInv s) (hset : SetRole role c none s s') : AddrInv s' where
  toMapInv := h.toMapInv.setRole hset (by simp)
  disjoint := by
    intro c₁ c₂ a h₁ h₂
    exact h.disjoint c₁ c₂ a (hset.addr_old h₁ (by simp)) (hset.addr_old h₂ (by simp))

/-- No client has the address. -/
def State.Unused (s : State) (a : UDPAddr) : Prop := ∀ role c, s.addrOf role c ≠ some a

/-- Authenticating a client from an address that nobody has. -/
theorem AddrInv.authenticate (h : AddrInv s) (hset : SetRole .authed c (some a) s s')
    (hunused : s.Unused a) (hfront : (s.clients c).udpFrontConn = true) (hknown : c ∈ s.known)
    (hconn : s.conn = true) : AddrInv s' where
  toMapInv := by
    refine h.toMapInv.setRole hset ?_
    intro b hb
    cases hb
    exact ⟨hfront, hknown, hconn, hunused .authed⟩
  disjoint := by
    intro c₁ c₂ b h₁ h₂
    have hold := hset.addr_old h₁ (by simp)
    by_cases hab : a = b
    · exact hunused .client c₁ (hab ▸ hold)
    · exact h.disjoint c₁ c₂ b hold (hset.addr_old h₂ (by simp [hab]))

/-- The state in which the authenticated address of `c` has both roles still has good
    maps. -/
theorem AddrInv.halfway (h : AddrInv s) (hauthed : s.addrOf .authed c = some a)
    (hset : SetRole .client c (some a) s s') : MapInv s' := by
  refine h.toMapInv.setRole hset ?_
  intro b hb
  cases hb
  have hne : s.addrOf .authed c ≠ none := by simp [hauthed]
  refine ⟨h.front .authed c hne, h.known .authed c hne, ?_, ?_⟩
  · by_contra hconn
    exact hne (h.closed (by simpa using hconn) .authed c)
  · intro c' hc'
    exact h.disjoint c' c a hc' hauthed

/-- Making the authenticated address the active one. -/
theorem AddrInv.promote (h : AddrInv s) {s₁ : State} (hauthed : s.addrOf .authed c = some a)
    (hset₁ : SetRole .client c (some a) s s₁) (hset₂ : SetRole .authed c none s₁ s') :
    AddrInv s' where
  toMapInv := (h.halfway hauthed hset₁).setRole hset₂ (by simp)
  disjoint := by
    intro c₁ c₂ b h₁ h₂
    have hauthed₂ : s.addrOf .authed c₂ = some b :=
      hset₁.addr_old (hset₂.addr_old h₂ (by simp)) (by simp)
    by_cases hab : a = b
    · -- `c` no longer has `a` in the role `authed`, and nobody else had it
      subst hab
      have hc : c₂ = c := (h.index .authed).unique hauthed₂ hauthed
      rw [hset₂.addr, hc, Function.update_self] at h₂
      cases h₂
    · exact h.disjoint c₁ c₂ b
        (hset₁.addr_old (hset₂.addr_old h₁ (by simp)) (by simp [hab])) hauthed₂

/-! ### The lookup -/

/-- A scan for a role finds what the map of the role has. -/
theorem MapInv.find_known (h : MapInv s) (role : Role) (a : UDPAddr) :
    s.known.find? (fun c => s.addrOf role c = some a) = s.mapOf role a := by
  cases hm : s.mapOf role a with
  | none =>
    rw [List.find?_eq_none]
    intro c _ hc
    exact (h.index role).eq_none_iff.mp hm c (of_decide_eq_true hc)
  | some c =>
    have hc := (h.index role a c).mp hm
    cases hf : s.known.find? (fun c => s.addrOf role c = some a) with
    | none =>
      have hknown := h.known role c (by simp [hc])
      exact absurd (decide_eq_true hc) (List.find?_eq_none.mp hf c hknown)
    | some c' =>
      have hc' : s.addrOf role c' = some a := by simpa using List.find?_some hf
      rw [(h.index role).unique hc' hc]

theorem AddrInv.scan_active (h : AddrInv s) (hc : s.addrOf .client c = some a) :
    s.scan a = .active c := by
  unfold State.scan
  rw [h.find_known, (h.index .client a c).mpr hc]

theorem AddrInv.scan_authed (h : AddrInv s) (hc : s.addrOf .authed c = some a) :
    s.scan a = .authed c := by
  have hnone : s.mapOf .client a = none :=
    (h.index .client).eq_none_iff.mpr fun c' hc' => h.disjoint c' c a hc' hc
  unfold State.scan
  rw [h.find_known, hnone, h.find_known, (h.index .authed a c).mpr hc]

theorem AddrInv.scan_unknown (h : AddrInv s) (hunused : s.Unused a) : s.scan a = .unknown := by
  unfold State.scan
  rw [h.find_known, (h.index .client).eq_none_iff.mpr (hunused .client), h.find_known,
    (h.index .authed).eq_none_iff.mpr (hunused .authed)]

theorem run_compareAddrs (c : UInt64) (a : UDPAddr) (otherwise : Prog State Lookup) :
    (compareAddrs c a otherwise).run s =
      if s.addrOf .client c = some a then (.active c, s)
      else if s.addrOf .authed c = some a then (.authed c, s)
      else otherwise.run s := by
  simp only [compareAddrs, run_bind, run_load, run_ite]
  simp only [isSameAddr_iff]
  rfl

/-- The lookup through the maps is the scan; it may fill the cache. -/
theorem AddrInv.run_lookupMaps (h : AddrInv s) (a : UDPAddr) :
    ((lookupMaps a).run s).1 = s.scan a ∧
      ∃ cache, ((lookupMaps a).run s).2 = { s with cacheClient := cache } := by
  cases hm : s.clientMap a with
  | some c =>
    have hc := (h.index .client a c).mp hm
    have hsame : isSameAddr (s.clients c).clientAddr a = true := isSameAddr_iff.mpr hc
    rw [h.scan_active hc]
    have hrun : (lookupMaps a).run s = (.active c, { s with cacheClient := some c }) := by
      simp [lookupMaps, hm, hsame]
    rw [hrun]
    exact ⟨rfl, some c, rfl⟩
  | none =>
    cases ha : s.authedMap a with
    | some c =>
      have hc := (h.index .authed a c).mp ha
      have hsame : isSameAddr (s.clients c).authedAddr a = true := isSameAddr_iff.mpr hc
      rw [h.scan_authed hc]
      have hrun : (lookupMaps a).run s = (.authed c, s) := by
        simp [lookupMaps, lookupAuthed, hm, ha, hsame]
      rw [hrun]
      exact ⟨rfl, s.cacheClient, rfl⟩
    | none =>
      have hunused : s.Unused a := by
        intro role
        cases role with
        | client => exact (h.index .client).eq_none_iff.mp hm
        | authed => exact (h.index .authed).eq_none_iff.mp ha
      rw [h.scan_unknown hunused]
      have hrun : (lookupMaps a).run s = (.unknown, s) := by
        simp [lookupMaps, lookupAuthed, hm, ha]
      rw [hrun]
      exact ⟨rfl, s.cacheClient, rfl⟩

/-- **The lookup is the scan**, whatever client is in the cache. -/
theorem AddrInv.run_getClient (h : AddrInv s) (hatt : P.attachable = true) (a : UDPAddr) :
    ((getClient P a).run s).1 = s.scan a ∧
      ∃ cache, ((getClient P a).run s).2 = { s with cacheClient := cache } := by
  cases hcache : s.cacheClient with
  | none => simpa [getClient, hatt, hcache] using h.run_lookupMaps a
  | some c =>
    have hrun : (getClient P a).run s = (compareAddrs c a (lookupMaps a)).run s := by
      simp [getClient, hatt, hcache]
    rw [hrun, run_compareAddrs]
    split
    · next hc => exact ⟨(h.scan_active hc).symm, s.cacheClient, rfl⟩
    · split
      · next hc => exact ⟨(h.scan_authed hc).symm, s.cacheClient, rfl⟩
      · exact h.run_lookupMaps a

/-! ### Steps that authenticate -/

theorem casSerialNumber_self (e : Accepted) (s : State) :
    State.casSerialNumber (s.clients e.client).serialNumber e s =
      (some s.log.accepted.length, s.accept e) := by
  simp [State.casSerialNumber]

/-- A client that an authentication packet names: known, and with a front end. -/
def joined (P : ServerProxy Key) (c : UInt64) (s : State) : State :=
  ((proxyGetClient P c).run s).2.storeFrontConn c

theorem run_proxyGetClient (c : UInt64) :
    ∃ known, ((proxyGetClient P c).run s).2 = { s with known := known } ∧ s.known ⊆ known ∧
      (P.attachable = true → c ∈ known) := by
  unfold proxyGetClient
  split
  · next hsole => exact ⟨s.known, rfl, fun _ hc => hc, fun hatt => absurd hatt hsole.1⟩
  · by_cases hc : c ∈ s.known
    · exact ⟨s.known, by simp [hc], fun _ h => h, fun _ => hc⟩
    · exact ⟨s.known ++ [c], by simp [hc], List.subset_append_left _ _, fun _ => by simp⟩

theorem joined_eq (c : UInt64) :
    ∃ known, joined P c s = { s with
        clients := Function.update s.clients c { s.clients c with udpFrontConn := true }
        known := known } ∧
      s.known ⊆ known ∧ (P.attachable = true → c ∈ known) := by
  obtain ⟨known, hrun, hsub, hmem⟩ := run_proxyGetClient (P := P) (s := s) c
  exact ⟨known, by rw [joined, hrun]; rfl, hsub, hmem⟩

theorem addrOf_joined (c : UInt64) (role : Role) :
    (joined P c s).addrOf role = s.addrOf role := by
  obtain ⟨known, heq, _⟩ := joined_eq (P := P) (s := s) c
  rw [heq]
  refine Eq.trans (addrOf_update { s.clients c with udpFrontConn := true } rfl role) ?_
  have hsame : ({ s.clients c with udpFrontConn := true } : ClientState).addr role =
      s.addrOf role c := by cases role <;> rfl
  rw [hsame]
  exact Function.update_eq_self c _

theorem AddrInv.joined (h : AddrInv s) (c : UInt64) : AddrInv (joined P c s) := by
  obtain ⟨known, heq, hsub, _⟩ := joined_eq (P := P) (s := s) c
  refine h.frame (addrOf_joined c) ?_ ?_ ?_ ?_
  · intro c' hc'
    rw [heq]
    show (Function.update s.clients c _ c').udpFrontConn = true
    rw [Function.update_apply]
    split
    · rfl
    · exact hc'
  · rw [heq]
    exact hsub
  · intro role
    rw [heq]
    cases role <;> rfl
  · rw [heq]
    exact id

theorem addrOf_accept (e : Accepted) (role : Role) : (s.accept e).addrOf role = s.addrOf role := by
  refine Eq.trans
    (addrOf_update { s.clients e.client with serialNumber := e.serial } rfl role) ?_
  have hsame : ({ s.clients e.client with serialNumber := e.serial } : ClientState).addr role =
      s.addrOf role e.client := by cases role <;> rfl
  rw [hsame]
  exact Function.update_eq_self e.client _

theorem front_accept (e : Accepted) (c : UInt64) :
    ((s.accept e).clients c).udpFrontConn = (s.clients c).udpFrontConn := by
  show (Function.update s.clients e.client _ c).udpFrontConn = _
  rw [Function.update_apply]
  split
  · next hc => rw [hc]
  · rfl

theorem AddrInv.accept (h : AddrInv s) (e : Accepted) : AddrInv (s.accept e) := by
  refine h.frame (addrOf_accept e) ?_ (fun _ hc => hc) ?_ id
  · intro c hc
    rw [front_accept]
    exact hc
  · intro role
    cases role <;> rfl

/-- The state after an accepted authentication from a new address. -/
def authenticated (P : ServerProxy Key) (addr : UDPAddr) (e : Accepted) (s : State) : State :=
  ((setAuthedAddr P e.client (some { addr := addr, auth := s.log.accepted.length }) none).run
    (s.accept e)).2

theorem AddrInv.authenticated (h : AddrInv s) (hatt : P.attachable = true) {e : Accepted}
    (hconn : s.conn = true) (hunused : s.Unused a) :
    AddrInv (authenticated P a e (Proxy.joined P e.client s)) := by
  obtain ⟨known, heq, _, hmem⟩ := joined_eq (P := P) (s := s) e.client
  have hj := h.joined (P := P) e.client
  have hfront : (((Proxy.joined P e.client s).accept e).clients e.client).udpFrontConn = true := by
    rw [front_accept, heq]
    simp
  have hset := setAuthedAddr_setRole (P := P) (hj.accept e).toMapInv hatt
    (some { addr := a, auth := (Proxy.joined P e.client s).log.accepted.length })
    (fun _ => hfront) none
  refine (hj.accept e).authenticate hset ?_ hfront ?_ ?_
  · intro role c
    rw [addrOf_accept, addrOf_joined]
    exact hunused role c
  · show e.client ∈ (Proxy.joined P e.client s).known
    rw [heq]
    exact hmem hatt
  · show (Proxy.joined P e.client s).conn = true
    rw [heq]
    exact hconn

/-- Case 3 of `readFrom` on an authentication packet. -/
theorem run_readUnknown {serial : UInt64} (hopen : P.openAuthPacket d.buf = some (c, serial)) :
    ((readUnknown P d).run s).2 =
      if serial ≤ (s.clients c).serialNumber then joined P c s
      else
        ((respond P d serial).run
          (authenticated P d.addr
            { client := c, serial := serial, source := .udp d.addr, packet := d.buf,
              renewal := false } (joined P c s))).2 := by
  have hserial : ((joined P c s).clients c).serialNumber = (s.clients c).serialNumber := by
    obtain ⟨known, heq, _⟩ := joined_eq (P := P) (s := s) c
    rw [heq]
    simp
  have hcas := casSerialNumber_self
    { client := c, serial := serial, source := .udp d.addr, packet := d.buf, renewal := false }
    (joined P c s)
  rw [hserial] at hcas
  have hjoined : ((proxyGetClient P c).run s).2.storeFrontConn c = joined P c s := rfl
  simp only [readUnknown, hopen, run_bind, run_load, run_store, run_ite, run_atomic, hjoined,
    hserial, hcas]
  split <;> rfl

/-- Case 2 of `readFrom` on an authentication packet of the same client: the serial number
    is renewed and the response sent. -/
theorem run_readAuthed {serial : UInt64} (hopen : P.openAuthPacket d.buf = some (c, serial)) :
    ((readAuthed P d c).run s).2 =
      if serial < (s.clients c).serialNumber then s
      else
        ((respond P d serial).run (s.accept
          { client := c, serial := serial, source := .udp d.addr, packet := d.buf,
            renewal := true })).2 := by
  have hcas := casSerialNumber_self
    { client := c, serial := serial, source := .udp d.addr, packet := d.buf, renewal := true } s
  simp only [readAuthed, hopen, ne_eq, not_true, if_false, run_bind, run_load, run_ite, run_atomic,
    hcas]
  split <;> rfl

/-! ### Every step keeps the invariant -/

section

variable (h : AddrInv s)
include h

theorem AddrInv.respond (d : Datagram) (serial : UInt64) : AddrInv ((respond P d serial).run s).2 :=
  h.frame (fun _ => rfl) (fun _ hc => hc) (fun _ hc => hc) (fun role => by cases role <;> rfl) id

theorem AddrInv.receive (source : Source) (buf : Bytes) : AddrInv (s.receive source buf) :=
  h.frame (fun _ => rfl) (fun _ hc => hc) (fun _ hc => hc) (fun role => by cases role <;> rfl) id

theorem AddrInv.clearAuthed (hatt : P.attachable = true) (c : UInt64) (flagged : Option Nat) :
    AddrInv ((setAuthedAddr P c none flagged).run s).2 :=
  h.clear (setAuthedAddr_setRole h.toMapInv hatt none (by simp) flagged)

theorem AddrInv.clearClient (hatt : P.attachable = true) (c : UInt64) (flagged : Option Nat) :
    AddrInv ((setClientAddr P c none flagged).run s).2 :=
  h.clear (setClientAddr_setRole h.toMapInv hatt none (by simp) flagged)

theorem AddrInv.readAuthed (hatt : P.attachable = true) (hc : s.addrOf .authed c = some d.addr) :
    AddrInv ((readAuthed P d c).run s).2 := by
  cases hopen : P.openAuthPacket d.buf with
  | none =>
    obtain ⟨r, hr, ha⟩ := Option.map_eq_some_iff.mp hc
    have hset₁ := setClientAddr_setRole h.toMapInv hatt (some r)
      (fun _ => h.front .authed c (by simp [hc])) none
    rw [Option.map_some, ha] at hset₁
    have hset₂ :=
      setAuthedAddr_setRole (c := c) (h.halfway hc hset₁) hatt none (by simp) none
    have hinv := h.promote hc hset₁ hset₂
    simpa [Proxy.readAuthed, hopen, hr] using hinv
  | some p =>
    obtain ⟨clientID, serial⟩ := p
    by_cases hid : clientID = c
    · subst hid
      rw [run_readAuthed hopen]
      split
      · exact h
      · exact (h.accept _).respond d serial
    · simpa [Proxy.readAuthed, hopen, hid] using h.clearAuthed hatt c none

theorem AddrInv.readUnknown (hatt : P.attachable = true) (hconn : s.conn = true)
    (hunused : s.Unused d.addr) : AddrInv ((readUnknown P d).run s).2 := by
  cases hopen : P.openAuthPacket d.buf with
  | none => simpa [Proxy.readUnknown, hopen] using h
  | some p =>
    obtain ⟨c, serial⟩ := p
    rw [run_readUnknown hopen]
    split
    · exact h.joined c
    · exact (h.authenticated hatt hconn hunused).respond d serial

/-- A scan that finds nobody shows that the address is unused. -/
theorem AddrInv.unused_of_scan (hscan : s.scan a = .unknown) : s.Unused a := by
  intro role c hc
  cases role with
  | client => rw [h.scan_active hc] at hscan; cases hscan
  | authed => rw [h.scan_authed hc] at hscan; cases hscan

theorem AddrInv.authed_of_scan (hscan : s.scan a = .authed c) : s.addrOf .authed c = some a := by
  unfold State.scan at hscan
  rw [h.find_known, h.find_known] at hscan
  cases hm : s.mapOf .client a with
  | some c' => simp [hm] at hscan
  | none =>
    cases ha : s.mapOf .authed a with
    | none => simp [hm, ha] at hscan
    | some c' =>
      have hc : c' = c := by simpa [hm, ha] using hscan
      exact hc ▸ (h.index .authed a c').mp ha

theorem AddrInv.readFrom (hatt : P.attachable = true) (d : Datagram) :
    AddrInv ((readFrom P d).run s).2 := by
  cases hconn : s.conn with
  | false => simpa [Proxy.readFrom, hconn] using h
  | true =>
    have h₁ := h.receive (.udp d.addr) d.buf
    obtain ⟨hscan, cache, hstate⟩ := h₁.run_getClient hatt d.addr
    have h₂ : AddrInv ((getClient P d.addr).run (s.receive (.udp d.addr) d.buf)).2 := by
      rw [hstate]
      exact h₁.frame (fun _ => rfl) (fun _ hc => hc) (fun _ hc => hc)
        (fun role => by cases role <;> rfl) id
    simp only [Proxy.readFrom, run_bind, run_load, hconn, if_true, run_store]
    cases hlook : ((getClient P d.addr).run (s.receive (.udp d.addr) d.buf)).1 with
    | active c => exact h₂
    | authed c =>
      refine h₂.readAuthed hatt ?_
      rw [hstate]
      exact h₁.authed_of_scan (hscan.symm.trans hlook)
    | unknown =>
      refine h₂.readUnknown hatt ?_ ?_
      · rw [hstate]
        exact hconn
      · rw [hstate]
        exact h₁.unused_of_scan (hscan.symm.trans hlook)

/-- `initConn` runs once, before any client has an address. -/
theorem AddrInv.initConn (hatt : P.attachable = true) (auth : Option (Datagram × UInt64 × UInt64)) :
    AddrInv ((initConn P auth).run s).2 := by
  have h₁ : AddrInv { s with conn := true } :=
    h.frame (fun _ => rfl) (fun _ hc => hc) (fun _ hc => hc) (fun role => by cases role <;> rfl)
      (fun _ => rfl)
  simp only [Proxy.initConn, run_bind, run_atomic]
  cases hconn : s.conn with
  | true => exact h₁
  | false =>
    match auth with
    | none => exact h₁
    | some (d, c, serial) =>
      have hunused : State.Unused { s with conn := true } d.addr := by
        intro role c' hc'
        rw [show ({ s with conn := true } : State).addrOf role c' = none from
          h.closed hconn role c'] at hc'
        cases hc'
      have hserial : ((Proxy.joined P c { s with conn := true }).clients c).serialNumber =
          (s.clients c).serialNumber := by
        obtain ⟨known, heq, _⟩ := joined_eq (P := P) (s := { s with conn := true }) c
        rw [heq]
        simp
      have hcas := casSerialNumber_self
        { client := c, serial := serial, source := .udp d.addr, packet := d.buf, renewal := false }
        (Proxy.joined P c { s with conn := true })
      have hjoined : ((proxyGetClient P c).run { s with conn := true }).2.storeFrontConn c =
        Proxy.joined P c { s with conn := true } := rfl
      simp only [Bool.not_false, if_true, run_bind, run_load, run_store, run_ite, run_atomic,
        hjoined, hcas]
      split
      · exact h₁.authenticated hatt rfl hunused
      · exact h₁.joined c

theorem AddrInv.clearTransport (hatt : P.attachable = true) (c : UInt64) (flagged : Nat) :
    AddrInv ((clearTransport P c flagged).run s).2 := by
  have h₁ := (h.clearAuthed hatt c (some flagged)).clearClient hatt c (some flagged)
  simp only [Proxy.clearTransport, run_bind, run_atomic]
  generalize ((setClientAddr P c none (some flagged)).run
    ((setAuthedAddr P c none (some flagged)).run s).2).2 = s₁ at h₁ ⊢
  -- the last action swaps the connection, which is no address
  refine h₁.frame ?_ ?_ (fun _ hc => hc) (fun role => by cases role <;> rfl) id
  · intro role
    refine Eq.trans (addrOf_update { s₁.clients c with clientConn := none } rfl role) ?_
    have hsame : ({ s₁.clients c with clientConn := none } : ClientState).addr role =
        s₁.addrOf role c := by cases role <;> rfl
    rw [hsame]
    exact Function.update_eq_self c _
  · intro c' hc'
    show (Function.update s₁.clients c _ c').udpFrontConn = true
    rw [Function.update_apply]
    split
    · next hc => exact hc ▸ hc'
    · exact hc'

end

theorem udpFrontend_inv (hatt : P.attachable = true) (hs : (udpFrontend P).Reachable s) :
    AddrInv s := by
  refine System.invariant (udpFrontend P) ?_ ?_ hs
  · intro s hinit
    have hs0 : s = {} := hinit
    subst hs0
    refine ⟨⟨?_, ?_, ?_, ?_⟩, ?_⟩
    · intro role c hne
      cases role <;> exact absurd rfl hne
    · intro role c hne
      cases role <;> exact absurd rfl hne
    · intro role a c
      cases role <;> simp [State.mapOf, State.addrOf, ClientState.addr]
    · intro _ role c
      cases role <;> rfl
    · intro c c' a h
      cases h
  · intro s l s' h hstep
    have hrun : ((l.prog P).run s).2 = s' := Option.some.inj hstep
    rw [← hrun]
    match l with
    | .readFrom d =>
      have hprog : ((UdpStep.readFrom d).prog P).run s = ((), ((Proxy.readFrom P d).run s).2) := by
        simp [UdpStep.prog]
      rw [hprog]
      exact h.readFrom hatt d
    | .initConn auth => exact h.initConn hatt auth
    | .clearTransport c flagged => exact h.clearTransport hatt c flagged

end Invariant

/-! ## The lookup is a scan -/

/-- **Addresses are unique and the lookup is exact.**  In attachable mode no address is used
    by two clients or in two roles, and the lookup through the cache and the maps returns what
    a scan over all known clients returns. -/
theorem getClient_eq_scan (hatt : P.attachable = true) {s : State}
    (hs : (udpFrontend P).Reachable s) :
    (∀ a role role' c c', s.addrOf role c = some a → s.addrOf role' c' = some a →
      c = c' ∧ role = role') ∧
    ∀ a, ((getClient P a).run s).1 = s.scan a := by
  have h := udpFrontend_inv hatt hs
  refine ⟨?_, fun a => (h.run_getClient hatt a).1⟩
  intro a role role' c c' hc hc'
  match role, role' with
  | .client, .client => exact ⟨(h.index .client).unique hc hc', rfl⟩
  | .authed, .authed => exact ⟨(h.index .authed).unique hc hc', rfl⟩
  | .client, .authed => exact absurd hc' (h.disjoint c c' a hc)
  | .authed, .client => exact absurd hc (h.disjoint c' c a hc')

/-! ### Two clients -/

/-- Client `7` becomes active on port `1`, and client `8` authenticates from port `2`. -/
def activeAndAuthed : List UdpStep :=
  [.initConn none, .readFrom (authFrom 1 7 3), .readFrom { authFrom 1 7 3 with buf := [0] },
    .readFrom (authFrom 2 8 4)]

theorem getClient_eq_scan_two_clients :
    ∃ s, runLabels (fun s l => some (((UdpStep.prog (xorProxy true)) l).run s).2) {}
        activeAndAuthed = some s ∧ s.scan (addrAt 1) = .active 7 ∧ s.scan (addrAt 2) = .authed 8 ∧
      (∀ a role role' c c', s.addrOf role c = some a → s.addrOf role' c' = some a →
        c = c' ∧ role = role') ∧
      ∀ a, ((getClient (xorProxy true) a).run s).1 = s.scan a := by
  have hrun : ∃ s, runLabels (fun s l => some (((UdpStep.prog (xorProxy true)) l).run s).2) {}
      activeAndAuthed = some s ∧ s.scan (addrAt 1) = .active 7 ∧ s.scan (addrAt 2) = .authed 8 :=
    exists_of_runLabels (by decide +kernel)
  obtain ⟨s, hs, h₁, h₂⟩ := hrun
  have hreach : (udpFrontend (xorProxy true)).Reachable s :=
    .of_runLabels (fun _ _ _ h => h) (.init rfl) hs
  obtain ⟨hunique, hscan⟩ := getClient_eq_scan (xorProxy true) rfl hreach
  exact ⟨s, hs, h₁, h₂, hunique, hscan⟩

end Proxy
