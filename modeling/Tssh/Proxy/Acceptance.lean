import Tssh.Proxy.Server

/-! # What the Front Ends Accept

    Any number of `readFrom` iterations, probes, handshakes, failing connections
    and timeout callbacks interleave action by action.  Every action respects one
    relation (`Later`): serial numbers only grow, the history only gets longer, and
    the history keeps explaining where every reference came from (`LogInv`).

    * `goroutine_safe`: every goroutine respects the relation.
    * `accepts_only_fresh_auths`: serial numbers never decrease, and addresses and
      connections come from authentic packets with new serial numbers only.
-/

open Go LTS Prog

namespace Proxy

variable {Key : Type} (P : ServerProxy Key)

/-! ## What the history says -/

/-- The `i`-th accepted authentication is the first one of client `c` from `source`. -/
def Log.AcceptedFrom (log : Log) (c : UInt64) (source : Source) (i : Nat) : Prop :=
  ∃ e, log.accepted[i]? = some e ∧ e.client = c ∧ e.source = source ∧ e.renewal = false

/-- A well-formed history. -/
structure Log.Ok (log : Log) : Prop where
  /-- Serial numbers of one client grow, strictly so at every new address or connection. -/
  ordered : ∀ (i j : Nat) (e e' : Accepted), i < j → log.accepted[i]? = some e →
    log.accepted[j]? = some e' → e.client = e'.client →
    e.serial ≤ e'.serial ∧ (e'.renewal = false → e.serial < e'.serial)
  authentic : ∀ e ∈ log.accepted, P.Authentic e.client e.serial e.packet ∧
    (e.source, e.packet) ∈ log.received
  held : ∀ x ∈ log.held, log.AcceptedFrom x.1 (.udp x.2.addr) x.2.auth
  installs : ∀ x ∈ log.installs, log.AcceptedFrom x.1 (.tcp x.2.conn) x.2.auth
  /-- A connection that was replaced had been installed before the one that replaced it. -/
  replaced : ∀ x ∈ log.replaced, [(x.1, x.2.1), (x.1, x.2.2)].Sublist log.installs
  cleared : ∀ x ∈ log.cleared, x.auth < x.cleared ∧
    ∃ e, log.accepted[x.auth]? = some e ∧ e.client = x.client

/-- The state of client `c` as the history explains it. -/
structure ClientOk (log : Log) (c : UInt64) (client : ClientState) : Prop where
  recorded : ∀ e ∈ log.accepted, e.client = c → e.serial ≤ client.serialNumber
  authed : ∀ r, client.authedAddr = some r → (c, r) ∈ log.held
  active : ∀ r, client.clientAddr = some r → (c, r) ∈ log.held
  conn : ∀ r, client.clientConn = some r → (c, r) ∈ log.installs

structure LogInv (s : State) : Prop where
  log : s.log.Ok P
  client : ∀ c, ClientOk s.log c (s.clients c)

/-- What every action of every goroutine respects. -/
structure Later (s t : State) : Prop where
  serial : ∀ c, (s.clients c).serialNumber ≤ (t.clients c).serialNumber
  accepted : s.log.accepted <+: t.log.accepted
  received : s.log.received <+: t.log.received
  held : s.log.held <+: t.log.held
  inv : LogInv P s → LogInv P t

variable {P} {s t : State} {c : UInt64}

theorem Later.refl (s : State) : Later P s s :=
  ⟨fun _ => UInt64.le_refl _, List.prefix_refl _, List.prefix_refl _, List.prefix_refl _, id⟩

theorem Later.trans {u : State} (h₁ : Later P s t) (h₂ : Later P t u) : Later P s u where
  serial := fun c => UInt64.le_trans (h₁.serial c) (h₂.serial c)
  accepted := h₁.accepted.trans h₂.accepted
  received := h₁.received.trans h₂.received
  held := h₁.held.trans h₂.held
  inv := fun h => h₂.inv (h₁.inv h)

/-! ### Facts that stay true -/

theorem getElem?_of_prefix {α : Type} {l l' : List α} {i : Nat} {a : α} (hle : l <+: l')
    (h : l[i]? = some a) : l'[i]? = some a := by
  obtain ⟨r, rfl⟩ := hle
  rw [List.getElem?_append_left (List.getElem?_eq_some_iff.mp h).1, h]

theorem Log.AcceptedFrom.mono {log log' : Log} {source : Source} {i : Nat}
    (h : log.AcceptedFrom c source i) (hle : log.accepted <+: log'.accepted) :
    log'.AcceptedFrom c source i := by
  obtain ⟨e, he, hrest⟩ := h
  exact ⟨e, getElem?_of_prefix hle he, hrest⟩

/-- A longer history still explains a client that it says nothing new about. -/
theorem ClientOk.mono {log log' : Log} {client : ClientState} (h : ClientOk log c client)
    (hacc : ∀ e ∈ log'.accepted, e.client = c → e ∈ log.accepted) (hheld : log.held ⊆ log'.held)
    (hinst : log.installs ⊆ log'.installs) : ClientOk log' c client where
  recorded := fun e he hc => h.recorded e (hacc e he hc) hc
  authed := fun r hr => hheld (h.authed r hr)
  active := fun r hr => hheld (h.active r hr)
  conn := fun r hr => hinst (h.conn r hr)

/-- One client and the history change together. -/
theorem LogInv.update (h : LogInv P s) (client : ClientState)
    (hclients : t.clients = Function.update s.clients c client) (hlog : t.log.Ok P)
    (hclient : ClientOk t.log c client)
    (hacc : ∀ e ∈ t.log.accepted, e.client ≠ c → e ∈ s.log.accepted)
    (hheld : s.log.held ⊆ t.log.held) (hinst : s.log.installs ⊆ t.log.installs) :
    LogInv P t where
  log := hlog
  client := by
    intro c'
    rw [hclients]
    by_cases hc : c' = c
    · rw [hc, Function.update_self]
      exact hclient
    · rw [Function.update_of_ne hc]
      exact (h.client c').mono (fun e he hec => hacc e he (fun h' => hc (hec ▸ h'))) hheld hinst

/-! ## What an action does to the history -/

section History

variable {log : Log}

theorem Log.Ok.accept (h : log.Ok P) {e : Accepted}
    (hauth : P.Authentic e.client e.serial e.packet)
    (hrecv : (e.source, e.packet) ∈ log.received)
    (hnew : ∀ e₀ ∈ log.accepted, e₀.client = e.client →
      e₀.serial ≤ e.serial ∧ (e.renewal = false → e₀.serial < e.serial)) :
    Log.Ok P { log with accepted := log.accepted ++ [e] } where
  ordered := by
    intro i j e₁ e₂ hij h₁ h₂ hc
    have hlast : j < log.accepted.length ∨ j = log.accepted.length := by
      have := (List.getElem?_eq_some_iff.mp h₂).1
      rw [List.length_append, List.length_singleton] at this
      omega
    have hi : i < log.accepted.length := by omega
    rw [List.getElem?_append_left hi] at h₁
    rcases hlast with hj | hj
    · rw [List.getElem?_append_left hj] at h₂
      exact h.ordered i j e₁ e₂ hij h₁ h₂ hc
    · -- the new entry is the last one
      rw [hj, List.getElem?_concat_length, Option.some.injEq] at h₂
      subst h₂
      exact hnew e₁ (List.mem_of_getElem? h₁) hc
  authentic := by
    intro e' he'
    rcases List.mem_append.mp he' with hold | hlast
    · exact h.authentic e' hold
    · rw [List.mem_singleton.mp hlast]
      exact ⟨hauth, hrecv⟩
  held := fun x hx => (h.held x hx).mono (List.prefix_append _ _)
  installs := fun x hx => (h.installs x hx).mono (List.prefix_append _ _)
  replaced := h.replaced
  cleared := by
    intro x hx
    obtain ⟨hlt, e', he', hc⟩ := h.cleared x hx
    exact ⟨hlt, e', getElem?_of_prefix (List.prefix_append _ _) he', hc⟩

theorem Log.Ok.receive (h : log.Ok P) (x : Source × Bytes) :
    Log.Ok P { log with received := log.received ++ [x] } where
  ordered := h.ordered
  authentic := fun e he => ⟨(h.authentic e he).1, List.mem_append_left _ (h.authentic e he).2⟩
  held := h.held
  installs := h.installs
  replaced := h.replaced
  cleared := h.cleared

theorem Log.Ok.hold (h : log.Ok P) {addr : Option AddrRef}
    (hfrom : ∀ r, addr = some r → log.AcceptedFrom c (.udp r.addr) r.auth) :
    Log.Ok P { log with held := log.held ++ (addr.map (c, ·)).toList } where
  ordered := h.ordered
  authentic := h.authentic
  held := by
    intro x hx
    rcases List.mem_append.mp hx with hold | hnew
    · exact h.held x hold
    · obtain ⟨r, hr, rfl⟩ := Option.map_eq_some_iff.mp (Option.mem_toList.mp hnew)
      exact hfrom r hr
  installs := h.installs
  replaced := h.replaced
  cleared := h.cleared

theorem Log.Ok.install (h : log.Ok P) {conn old : Option ConnRef}
    (hfrom : ∀ r, conn = some r → log.AcceptedFrom c (.tcp r.conn) r.auth)
    (hold : ∀ r, old = some r → (c, r) ∈ log.installs) :
    Log.Ok P { log with
      installs := log.installs ++ (conn.map (c, ·)).toList
      replaced := log.replaced ++ (old.bind fun o => conn.map (c, o, ·)).toList } where
  ordered := h.ordered
  authentic := h.authentic
  held := h.held
  installs := by
    intro x hx
    rcases List.mem_append.mp hx with hin | hnew
    · exact h.installs x hin
    · obtain ⟨r, hr, rfl⟩ := Option.map_eq_some_iff.mp (Option.mem_toList.mp hnew)
      exact hfrom r hr
  replaced := by
    intro x hx
    rcases List.mem_append.mp hx with hin | hnew
    · exact (h.replaced x hin).trans (List.sublist_append_left _ _)
    · obtain ⟨o, ho, hmap⟩ := Option.bind_eq_some_iff.mp (Option.mem_toList.mp hnew)
      obtain ⟨r, hr, rfl⟩ := Option.map_eq_some_iff.mp hmap
      rw [hr]
      exact (List.singleton_sublist.mpr (hold o ho)).append (List.Sublist.refl [(c, r)])
  cleared := h.cleared

theorem Log.Ok.clear (h : log.Ok P) {old flagged : Option Nat}
    (hold : ∀ i, old = some i → ∃ e, log.accepted[i]? = some e ∧ e.client = c) :
    Log.Ok P { log with cleared := log.clear c flagged old } where
  ordered := h.ordered
  authentic := h.authentic
  held := h.held
  installs := h.installs
  replaced := h.replaced
  cleared := by
    intro x hx
    match flagged, old with
    | none, _ => exact h.cleared x hx
    | some _, none => exact h.cleared x hx
    | some n, some i =>
      rcases List.mem_append.mp hx with hin | hnew
      · exact h.cleared x hin
      · rw [List.mem_singleton.mp hnew]
        obtain ⟨e, he, hc⟩ := hold i rfl
        exact ⟨(List.getElem?_eq_some_iff.mp he).1, e, he, hc⟩

end History

/-! ## Every action respects the relation -/

section Actions

/-- A client whose fields change, except for the serial number. -/
theorem serial_update (client : ClientState)
    (hclients : t.clients = Function.update s.clients c client)
    (hserial : client.serialNumber = (s.clients c).serialNumber) (c' : UInt64) :
    (s.clients c').serialNumber ≤ (t.clients c').serialNumber := by
  rw [hclients, Function.update_apply]
  split
  · next hc =>
    rw [hserial, hc]
    exact UInt64.le_refl _
  · exact UInt64.le_refl _

/-- What no history says anything about may change freely. -/
theorem later_neutral (hclients : ∀ c, (t.clients c).serialNumber = (s.clients c).serialNumber ∧
      (t.clients c).authedAddr = (s.clients c).authedAddr ∧
      (t.clients c).clientAddr = (s.clients c).clientAddr ∧
      (t.clients c).clientConn = (s.clients c).clientConn) (hlog : t.log = s.log) :
    Later P s t := by
  have hprefix : ∀ {α : Type} (f : Log → List α), f s.log <+: f t.log := by
    intro α f
    simp only [hlog, List.prefix_rfl]
  refine ⟨fun c => (hclients c).1 ▸ UInt64.le_refl _, hprefix _, hprefix _, hprefix _, ?_⟩
  · intro h
    refine ⟨hlog ▸ h.log, ?_⟩
    intro c
    obtain ⟨hserial, hauthed, hactive, hconn⟩ := hclients c
    have hc := h.client c
    rw [hlog]
    exact ⟨hserial ▸ hc.recorded, hauthed ▸ hc.authed, hactive ▸ hc.active, hconn ▸ hc.conn⟩

theorem later_receive (source : Source) (buf : Bytes) : Later P s (s.receive source buf) where
  serial := fun _ => UInt64.le_refl _
  accepted := List.prefix_refl _
  received := List.prefix_append _ _
  held := List.prefix_refl _
  inv := fun h => ⟨h.log.receive (source, buf), fun c =>
    (h.client c).mono (fun _ he _ => he) (fun _ hx => hx) (fun _ hx => hx)⟩

/-- An accepted serial number is at least the recorded one, and above it unless the
    authentication is a renewal. -/
theorem later_accept {e : Accepted} (hauth : P.Authentic e.client e.serial e.packet)
    (hrecv : (e.source, e.packet) ∈ s.log.received)
    (hle : (s.clients e.client).serialNumber ≤ e.serial)
    (hlt : e.renewal = false → (s.clients e.client).serialNumber < e.serial) :
    Later P s (s.accept e) where
  serial := by
    intro c
    show _ ≤ (Function.update s.clients e.client _ c).serialNumber
    rw [Function.update_apply]
    split
    · next hc => exact hc ▸ hle
    · exact UInt64.le_refl _
  accepted := List.prefix_append _ _
  received := List.prefix_refl _
  held := List.prefix_refl _
  inv := by
    intro h
    have hrec := (h.client e.client).recorded
    refine h.update { s.clients e.client with serialNumber := e.serial } rfl ?_ ?_ ?_
      (fun _ hx => hx) (fun _ hx => hx)
    · refine h.log.accept hauth hrecv ?_
      intro e₀ he₀ hc
      exact ⟨UInt64.le_trans (hrec e₀ he₀ hc) hle,
        fun hren => UInt64.lt_of_le_of_lt (hrec e₀ he₀ hc) (hlt hren)⟩
    · have hc := h.client e.client
      refine ⟨?_, hc.authed, hc.active, hc.conn⟩
      intro e₀ he₀ hec
      rcases List.mem_append.mp he₀ with hold | hnew
      · exact UInt64.le_trans (hrec e₀ hold hec) hle
      · rw [List.mem_singleton.mp hnew]
        exact UInt64.le_refl _
    · intro e₀ he₀ hne
      rcases List.mem_append.mp he₀ with hold | hnew
      · exact hold
      · exact absurd (by rw [List.mem_singleton.mp hnew]) hne

/-- The reference that a client points to comes from an accepted authentication of the
    client. -/
theorem LogInv.held_accepted (h : LogInv P s) {r : AddrRef} (hr : (c, r) ∈ s.log.held) :
    ∃ e, s.log.accepted[r.auth]? = some e ∧ e.client = c := by
  obtain ⟨e, he, hc, _⟩ := h.log.held (c, r) hr
  exact ⟨e, he, hc⟩

theorem LogInv.installed_accepted (h : LogInv P s) {r : ConnRef}
    (hr : (c, r) ∈ s.log.installs) : ∃ e, s.log.accepted[r.auth]? = some e ∧ e.client = c := by
  obtain ⟨e, he, hc, _⟩ := h.log.installs (c, r) hr
  exact ⟨e, he, hc⟩

theorem later_swapAuthedAddr {addr : Option AddrRef} (flagged : Option Nat)
    (hfrom : ∀ r, addr = some r → s.log.AcceptedFrom c (.udp r.addr) r.auth) :
    Later P s (State.swapAuthedAddr c addr flagged s).2 where
  serial := serial_update { s.clients c with authedAddr := addr } rfl rfl
  accepted := List.prefix_refl _
  received := List.prefix_refl _
  held := List.prefix_append _ _
  inv := by
    intro h
    have hc := h.client c
    refine h.update { s.clients c with authedAddr := addr } rfl ?_ ?_ (fun _ he _ => he)
      (List.subset_append_left _ _) (fun _ hx => hx)
    · refine (h.log.clear ?_).hold hfrom
      intro i hi
      obtain ⟨r, hr, rfl⟩ := Option.map_eq_some_iff.mp hi
      exact h.held_accepted (hc.authed r hr)
    · refine ⟨hc.recorded, ?_, fun r hr => List.mem_append_left _ (hc.active r hr), hc.conn⟩
      intro r hr
      have hr' : addr = some r := hr
      exact List.mem_append_right _ (by simp [hr'])

theorem later_swapClientAddr {addr : Option AddrRef} (flagged : Option Nat)
    (hheld : ∀ r, addr = some r → (c, r) ∈ s.log.held) :
    Later P s (State.swapClientAddr c addr flagged s).2 where
  serial := serial_update { s.clients c with clientAddr := addr } rfl rfl
  accepted := List.prefix_refl _
  received := List.prefix_refl _
  held := List.prefix_refl _
  inv := by
    intro h
    have hc := h.client c
    refine h.update { s.clients c with clientAddr := addr } rfl ?_ ?_ (fun _ he _ => he)
      (fun _ hx => hx) (fun _ hx => hx)
    · refine h.log.clear ?_
      intro i hi
      obtain ⟨r, hr, rfl⟩ := Option.map_eq_some_iff.mp hi
      exact h.held_accepted (hc.active r hr)
    · exact ⟨hc.recorded, hc.authed, hheld, hc.conn⟩

theorem later_swapClientConn {conn : Option ConnRef} (flagged : Option Nat)
    (hfrom : ∀ r, conn = some r → s.log.AcceptedFrom c (.tcp r.conn) r.auth) :
    Later P s (State.swapClientConn c conn flagged s).2 where
  serial := serial_update { s.clients c with clientConn := conn } rfl rfl
  accepted := List.prefix_refl _
  received := List.prefix_refl _
  held := List.prefix_refl _
  inv := by
    intro h
    have hc := h.client c
    refine h.update { s.clients c with clientConn := conn } rfl ?_ ?_ (fun _ he _ => he)
      (fun _ hx => hx) (List.subset_append_left _ _)
    · refine (h.log.clear ?_).install hfrom hc.conn
      intro i hi
      obtain ⟨r, hr, rfl⟩ := Option.map_eq_some_iff.mp hi
      exact h.installed_accepted (hc.conn r hr)
    · refine ⟨hc.recorded, hc.authed, hc.active, ?_⟩
      intro r hr
      have hr' : conn = some r := hr
      exact List.mem_append_right _ (by simp [hr'])

/-- A connection that failed is dropped. -/
theorem later_dropped (s : State) (c : UInt64) :
    Later P s (s.modifyClient c ({ · with clientConn := none })) where
  serial := serial_update { s.clients c with clientConn := none } rfl rfl
  accepted := List.prefix_refl _
  received := List.prefix_refl _
  held := List.prefix_refl _
  inv := by
    intro h
    have hc := h.client c
    refine h.update { s.clients c with clientConn := none } rfl h.log ?_ (fun _ he _ => he)
      (fun _ hx => hx) (fun _ hx => hx)
    exact ⟨hc.recorded, hc.authed, hc.active, fun r hr => by cases hr⟩

end Actions

/-! ## Programs -/

section Programs

/-- The relation and its invariant, as the rely condition of the front ends. -/
def front (P : ServerProxy Key) : Rely State where
  rel := Later P
  inv := LogInv P
  refl := Later.refl
  trans := fun _ _ _ h₁ h₂ => h₁.trans h₂
  keeps := fun _ _ h hlater => hlater.inv h

theorem stable_received (x : Source × Bytes) :
    Stable (front P) (fun s => x ∈ s.log.received) :=
  fun _ _ h hx => h.received.subset hx

theorem stable_held (x : UInt64 × AddrRef) : Stable (front P) (fun s => x ∈ s.log.held) :=
  fun _ _ h hx => h.held.subset hx

theorem stable_acceptedFrom (c : UInt64) (source : Source) (i : Nat) :
    Stable (front P) (fun s => s.log.AcceptedFrom c source i) :=
  fun _ _ h hx => hx.mono h.accepted

/-- Changes of the maps, the cache, the list of known clients, the packets sent. -/
theorem later_of_same (hclients : t.clients = s.clients) (hlog : t.log = s.log) : Later P s t :=
  later_neutral (fun c => by rw [hclients]; exact ⟨rfl, rfl, rfl, rfl⟩) hlog

theorem addAuthedMap_safe (c : UInt64) :
    Safe (front P) (fun _ => True) (addAuthedMap P c) (fun _ _ => True) := by
  unfold addAuthedMap
  refine .ite (fun _ => .bind (.load_any Stable.true) ?_) (fun _ => .pure (fun _ _ => trivial))
  intro addr
  match addr with
  | none => exact .pure (fun _ _ => trivial)
  | some _ => exact .store Stable.true (fun _ => later_of_same rfl rfl)

theorem delAuthedMap_safe (addr : UDPAddr) :
    Safe (front P) (fun _ => True) (delAuthedMap P addr) (fun _ _ => True) := by
  unfold delAuthedMap
  exact .ite (fun _ => .store Stable.true (fun _ => later_of_same rfl rfl))
    (fun _ => .pure (fun _ _ => trivial))

theorem addClientMap_safe (c : UInt64) :
    Safe (front P) (fun _ => True) (addClientMap P c) (fun _ _ => True) := by
  unfold addClientMap
  refine .ite (fun _ => .bind (.load_any Stable.true) ?_) (fun _ => .pure (fun _ _ => trivial))
  intro addr
  match addr with
  | none => exact .pure (fun _ _ => trivial)
  | some _ => exact .store Stable.true (fun _ => later_of_same rfl rfl)

theorem delClientMap_safe (addr : UDPAddr) :
    Safe (front P) (fun _ => True) (delClientMap P addr) (fun _ _ => True) := by
  unfold delClientMap
  exact .ite (fun _ => .store Stable.true (fun _ => later_of_same rfl rfl))
    (fun _ => .pure (fun _ _ => trivial))

/-- After the swap of an address both setters only write their map: they enter the new address
    and remove the old one. -/
theorem moveMap_safe {add : Prog State Unit} {del : UDPAddr → Prog State Unit}
    (hadd : Safe (front P) (fun _ => True) add (fun _ _ => True))
    (hdel : ∀ a, Safe (front P) (fun _ => True) (del a) (fun _ _ => True))
    (addr oldAddr : Option AddrRef) (conn : Bool) :
    Safe (front P) (fun _ => True)
      (do
        if addr.isSome ∧ conn then add else pure ()
        match oldAddr with
        | some old => if conn then del old.addr else pure ()
        | none => pure ())
      (fun _ _ => True) := by
  have hold : Safe (front P) (fun _ => True)
      (match oldAddr with
        | some old => if conn then del old.addr else pure ()
        | none => pure ()) (fun _ _ => True) := by
    match oldAddr with
    | some old => exact .ite (fun _ => hdel old.addr) (fun _ => .pure (fun _ _ => trivial))
    | none => exact .pure (fun _ _ => trivial)
  exact .ite (fun _ => .bind hadd (fun _ => hold)) (fun _ => hold)

/-- An address may become the authenticated one after an accepted authentication from it. -/
theorem setAuthedAddr_safe (addr : Option AddrRef) (flagged : Option Nat) :
    Safe (front P) (fun s => ∀ r, addr = some r → s.log.AcceptedFrom c (.udp r.addr) r.auth)
      (setAuthedAddr P c addr flagged) (fun _ _ => True) := by
  have hstable : Stable (front P)
      (fun s => ∀ r, addr = some r → s.log.AcceptedFrom c (.udp r.addr) r.auth) :=
    fun s t h hs r hr => stable_acceptedFrom c _ _ s t h (hs r hr)
  unfold setAuthedAddr
  refine .bind (.load_any hstable) ?_
  intro conn
  refine .bind (.atomic (Q := fun _ _ => True)
    (fun s _ hs => later_swapAuthedAddr flagged hs) (fun _ _ _ => trivial)
    (fun _ => Stable.true)) ?_
  intro oldAddr
  exact moveMap_safe (addAuthedMap_safe c) delAuthedMap_safe addr oldAddr conn

/-- An address may become the active one if it was the authenticated one. -/
theorem setClientAddr_safe (addr : Option AddrRef) (flagged : Option Nat) :
    Safe (front P) (fun s => ∀ r, addr = some r → (c, r) ∈ s.log.held)
      (setClientAddr P c addr flagged) (fun _ _ => True) := by
  have hstable : Stable (front P) (fun s => ∀ r, addr = some r → (c, r) ∈ s.log.held) :=
    fun s t h hs r hr => stable_held (c, r) s t h (hs r hr)
  unfold setClientAddr
  refine .bind (.load_any hstable) ?_
  intro conn
  refine .bind (.atomic (Q := fun _ _ => True)
    (fun s _ hs => later_swapClientAddr flagged hs) (fun _ _ _ => trivial)
    (fun _ => Stable.true)) ?_
  intro oldAddr
  exact moveMap_safe (addClientMap_safe c) delClientMap_safe addr oldAddr conn

/-- The compare-and-swap of a serial number: a success is a new entry of the history. -/
theorem cas_safe {c serial old : UInt64} {source : Source} {packet : Bytes} (renewal : Bool)
    (hauth : P.Authentic c serial packet) (hle : old ≤ serial)
    (hlt : renewal = false → old < serial) :
    Safe (front P) (fun s => (source, packet) ∈ s.log.received)
      (atomic (State.casSerialNumber old
        { client := c, serial := serial, source := source, packet := packet, renewal := renewal }))
      (fun a s => ∀ i, a = some i → renewal = false → s.log.AcceptedFrom c source i) := by
  refine .atomic ?_ ?_ ?_
  · intro s _ hrecv
    unfold State.casSerialNumber
    split
    · next heq =>
      have heq : (s.clients c).serialNumber = old := heq
      exact later_accept hauth hrecv (heq ▸ hle) (heq ▸ hlt)
    · exact Later.refl s
  · intro s _ _ i hi hren
    unfold State.casSerialNumber at hi ⊢
    split at hi
    · next heq =>
      rw [if_pos heq]
      obtain rfl : s.log.accepted.length = i := Option.some.inj hi
      exact ⟨_, List.getElem?_concat_length, rfl, rfl, hren⟩
    · cases hi
  · intro a s t h hs i hi hren
    exact stable_acceptedFrom _ _ i s t h (hs i hi hren)

theorem proxyGetClient_safe {F : State → Prop} (hF : Stable (front P) F) (c : UInt64) :
    Safe (front P) F (proxyGetClient P c) (fun _ => F) := by
  unfold proxyGetClient
  refine .ite (fun _ => .pure (fun _ hs => hs)) (fun _ => .store hF ?_)
  intro s
  split
  · exact Later.refl s
  · exact later_of_same rfl rfl

/-- A field of a client that no history mentions. -/
theorem later_modifyClient (f : ClientState → ClientState)
    (hf : ∀ client, (f client).serialNumber = client.serialNumber ∧
      (f client).authedAddr = client.authedAddr ∧ (f client).clientAddr = client.clientAddr ∧
      (f client).clientConn = client.clientConn) (s : State) (c : UInt64) :
    Later P s (s.modifyClient c f) := by
  refine later_neutral ?_ rfl
  intro c'
  have hclient : (s.modifyClient c f).clients c' =
      if c' = c then f (s.clients c) else s.clients c' := Function.update_apply _ _ _ _
  rw [hclient]
  split
  · next hc => exact hc ▸ hf _
  · exact ⟨rfl, rfl, rfl, rfl⟩

theorem storeFrontConn_safe {F : State → Prop} (hF : Stable (front P) F) (c : UInt64) :
    Safe (front P) F (store (State.storeFrontConn c)) (fun _ => F) :=
  .store hF (fun s =>
    later_modifyClient ({ · with udpFrontConn := true }) (fun _ => ⟨rfl, rfl, rfl, rfl⟩) s c)

theorem respond_safe (d : Datagram) (serial : UInt64) :
    Safe (front P) (fun _ => True) (respond P d serial) (fun _ _ => True) :=
  .store Stable.true (fun _ => later_of_same rfl rfl)

section Lookup

variable {F : State → Prop} (hF : Stable (front P) F)

include hF

theorem compareAddrs_safe (c : UInt64) (addr : UDPAddr) {otherwise : Prog State Lookup}
    (h : Safe (front P) F otherwise (fun _ => F)) :
    Safe (front P) F (compareAddrs c addr otherwise) (fun _ => F) := by
  unfold compareAddrs
  refine .bind (.load_any hF) (fun _ => .ite (fun _ => .pure (fun _ hs => hs)) (fun _ => ?_))
  exact .bind (.load_any hF) (fun _ => .ite (fun _ => .pure (fun _ hs => hs)) (fun _ => h))

theorem lookupAuthed_safe (addr : UDPAddr) :
    Safe (front P) F (lookupAuthed addr) (fun _ => F) := by
  unfold lookupAuthed
  refine .bind (.load_any hF) ?_
  intro found
  match found with
  | none => exact .pure (fun _ hs => hs)
  | some c =>
    exact .bind (.load_any hF)
      (fun _ => .ite (fun _ => .pure (fun _ hs => hs)) (fun _ => .pure (fun _ hs => hs)))

theorem lookupMaps_safe (addr : UDPAddr) : Safe (front P) F (lookupMaps addr) (fun _ => F) := by
  unfold lookupMaps
  refine .bind (.load_any hF) ?_
  intro found
  match found with
  | none => exact lookupAuthed_safe hF addr
  | some c =>
    refine .bind (.load_any hF) (fun _ => .ite (fun _ => ?_) (fun _ => lookupAuthed_safe hF addr))
    exact .bind (.store hF (fun _ => later_of_same rfl rfl)) (fun _ => .pure (fun _ hs => hs))

theorem getClient_safe (addr : UDPAddr) : Safe (front P) F (getClient P addr) (fun _ => F) := by
  unfold getClient
  refine .ite (fun _ => .bind (.load_any hF) ?_)
    (fun _ => compareAddrs_safe hF _ addr (.pure (fun _ hs => hs)))
  intro cached
  match cached with
  | none => exact lookupMaps_safe hF addr
  | some c => exact compareAddrs_safe hF c addr (lookupMaps_safe hF addr)

end Lookup

/-- After a successful compare-and-swap the address that was authenticated is stored. -/
theorem storeAuthed_safe {c : UInt64} {a : UDPAddr} {result : Option Nat} {i : Nat}
    (hresult : result = some i) {renewal : Bool} (hren : renewal = false) :
    Safe (front P)
      (fun s => ∀ j, result = some j → renewal = false → s.log.AcceptedFrom c (.udp a) j)
      (setAuthedAddr P c (some { addr := a, auth := i }) none) (fun _ _ => True) := by
  refine (setAuthedAddr_safe _ none).strengthen ?_
  intro s hs r hr
  cases hr
  exact hs i hresult hren

/-! ### The goroutines -/

theorem readAuthed_safe (d : Datagram) (c : UInt64) :
    Safe (front P) (fun s => (.udp d.addr, d.buf) ∈ s.log.received) (readAuthed P d c)
      (fun _ _ => True) := by
  unfold readAuthed
  cases hopen : P.openAuthPacket d.buf with
  | none =>
    -- the address that is made active was the authenticated one when it was loaded
    refine .bind (.load (Q := fun addr s => ∀ r, addr = some r → (c, r) ∈ s.log.held)
      (fun s h _ r hr => (h.client c).authed r hr)
      (fun addr s t h hs r hr => stable_held (c, r) s t h (hs r hr))) ?_
    intro addr
    match addr with
    | none => exact .pure (fun _ _ => trivial)
    | some r =>
      refine .bind (setClientAddr_safe (some r) none) (fun _ => ?_)
      exact .bind ((setAuthedAddr_safe none none).strengthen (fun _ _ r hr => by cases hr))
        (fun _ => .pure (fun _ _ => trivial))
  | some p =>
    obtain ⟨clientID, serial⟩ := p
    have hauth := ServerProxy.openAuthPacket_iff.mp hopen
    refine .ite (fun _ => ?_) (fun hid => ?_)
    · exact .bind ((setAuthedAddr_safe none none).strengthen (fun _ _ r hr => by cases hr))
        (fun _ => .pure (fun _ _ => trivial))
    · obtain rfl : clientID = c := not_not.mp hid
      refine .bind (.load_any (stable_received _)) (fun old => .ite (fun _ => ?_) (fun hlt => ?_))
      · exact .pure (fun _ _ => trivial)
      · refine .bind (cas_safe true hauth (UInt64.not_lt.mp hlt) (fun h => by cases h)) ?_
        intro result
        match result with
        | some _ =>
          exact .bind ((respond_safe d serial).strengthen (fun _ _ => trivial))
            (fun _ => .pure (fun _ _ => trivial))
        | none =>
          refine .bind ((Safe.load_any Stable.true).strengthen (fun _ _ => trivial)) (fun n => ?_)
          exact .bind (respond_safe d n) (fun _ => .pure (fun _ _ => trivial))

theorem readUnknown_safe (d : Datagram) :
    Safe (front P) (fun s => (.udp d.addr, d.buf) ∈ s.log.received) (readUnknown P d)
      (fun _ _ => True) := by
  unfold readUnknown
  cases hopen : P.openAuthPacket d.buf with
  | none => exact .pure (fun _ _ => trivial)
  | some p =>
    obtain ⟨c, serial⟩ := p
    have hauth := ServerProxy.openAuthPacket_iff.mp hopen
    have hrecv : Stable (front P) (fun s => (.udp d.addr, d.buf) ∈ s.log.received) :=
      stable_received _
    refine .bind (proxyGetClient_safe hrecv c) (fun _ => ?_)
    refine .bind (storeFrontConn_safe hrecv c) (fun _ => ?_)
    refine .bind (.load_any hrecv) (fun old => .ite (fun _ => ?_) (fun hle => ?_))
    · exact .pure (fun _ _ => trivial)
    · have hlt := UInt64.not_le.mp hle
      refine .bind (cas_safe false hauth (UInt64.le_of_lt hlt) (fun _ => hlt)) ?_
      intro result
      match result with
      | some i =>
        refine .bind (storeAuthed_safe rfl rfl) (fun _ => ?_)
        exact .bind (respond_safe d serial) (fun _ => .pure (fun _ _ => trivial))
      | none =>
        refine .bind ((Safe.load_any Stable.true).strengthen (fun _ _ => trivial)) (fun n => ?_)
        exact .bind (respond_safe d n) (fun _ => .pure (fun _ _ => trivial))

/-- A packet that arrives is in the history from then on. -/
theorem receive_safe (source : Source) (buf : Bytes) :
    Safe (front P) (fun _ => True) (store (State.receive source buf))
      (fun _ s => (source, buf) ∈ s.log.received) :=
  .atomic (fun _ _ _ => later_receive source buf)
    (fun _ _ _ => List.mem_append_right _ (List.mem_singleton_self _))
    (fun _ => stable_received _)

theorem readFrom_safe (d : Datagram) :
    Safe (front P) (fun _ => True) (readFrom P d) (fun _ _ => True) := by
  unfold readFrom
  refine .bind (.load_any Stable.true) (fun _ => .ite (fun _ => ?_) (fun _ => ?_))
  · refine .bind (receive_safe _ _) (fun _ => ?_)
    refine .bind (getClient_safe (stable_received _) d.addr) ?_
    intro found
    match found with
    | .active c => exact .pure (fun _ _ => trivial)
    | .authed c => exact readAuthed_safe d c
    | .unknown => exact readUnknown_safe d
  · exact .pure (fun _ _ => trivial)

/-- `initConn` with no packet, or with an authentic one that was received. -/
theorem initConn_safe {auth : Option (Datagram × UInt64 × UInt64)}
    (hauth : ∀ d c serial, auth = some (d, c, serial) → P.Authentic c serial d.buf) :
    Safe (front P)
      (fun s => ∀ x, auth = some x → (.udp x.1.addr, x.1.buf) ∈ s.log.received)
      (initConn P auth) (fun _ _ => True) := by
  have hstable : Stable (front P)
      (fun s => ∀ x, auth = some x → (.udp x.1.addr, x.1.buf) ∈ s.log.received) :=
    fun s t h hs x hx => stable_received _ s t h (hs x hx)
  unfold initConn
  refine .bind (.atomic (fun _ _ _ => later_of_same rfl rfl) (fun _ _ hs => hs)
    (fun _ => hstable)) (fun _ => .ite (fun _ => ?_) (fun _ => .pure (fun _ _ => trivial)))
  match auth, hauth with
  | none, _ => exact .pure (fun _ _ => trivial)
  | some (d, c, serial), hauth =>
    have hrecv : Stable (front P) (fun s => (.udp d.addr, d.buf) ∈ s.log.received) :=
      stable_received _
    refine Safe.strengthen ?_ (fun s hs => hs (d, c, serial) rfl)
    refine .bind (proxyGetClient_safe hrecv c) (fun _ => ?_)
    refine .bind (storeFrontConn_safe hrecv c) (fun _ => ?_)
    refine .bind (.load_any hrecv) (fun old => .ite (fun hlt => ?_) (fun _ => ?_))
    · refine .bind (cas_safe false (hauth d c serial rfl) (UInt64.le_of_lt hlt) (fun _ => hlt)) ?_
      intro result
      match result with
      | some i => exact storeAuthed_safe rfl rfl
      | none => exact .pure (fun _ _ => trivial)
    · exact .pure (fun _ _ => trivial)

theorem probeAuth_safe (d : Datagram) :
    Safe (front P) (fun _ => True) (probeAuth P d) (fun _ _ => True) := by
  unfold probeAuth
  refine .bind (receive_safe _ _) (fun _ => ?_)
  cases hopen : P.openAuthPacket d.buf with
  | none => exact .pure (fun _ _ => trivial)
  | some p =>
    obtain ⟨c, serial⟩ := p
    refine (initConn_safe ?_).strengthen ?_
    · intro d' c' serial' heq
      cases heq
      exact ServerProxy.openAuthPacket_iff.mp hopen
    · intro s hs x hx
      cases hx
      exact hs

/-- A handshake installs its connection after its own compare-and-swap. -/
theorem handshake_safe (h : Handshake) :
    Safe (front P) (fun _ => True) (handshake P h) (fun _ _ => True) := by
  unfold handshake
  refine .bind (receive_safe _ _) (fun _ => ?_)
  cases hopen : P.openAuthPacket h.buf with
  | none => exact .pure (fun _ _ => trivial)
  | some p =>
    obtain ⟨c, serial⟩ := p
    have hauth := ServerProxy.openAuthPacket_iff.mp hopen
    refine .bind (proxyGetClient_safe (stable_received _) c) (fun _ => ?_)
    refine .bind (.load_any (stable_received _)) (fun old => .ite (fun _ => ?_) (fun hle => ?_))
    · exact .pure (fun _ _ => trivial)
    · have hlt := UInt64.not_le.mp hle
      refine .bind (cas_safe false hauth (UInt64.le_of_lt hlt) (fun _ => hlt)) ?_
      intro result
      match result with
      | none => exact .pure (fun _ _ => trivial)
      | some i =>
        refine .ite (fun _ => ?_) (fun _ => .pure (fun _ _ => trivial))
        have hfrom : Stable (front P) (fun s => s.log.AcceptedFrom c (.tcp h.conn) i) :=
          stable_acceptedFrom c _ i
        refine Safe.strengthen ?_ (fun s hs => hs i rfl rfl)
        refine .bind (.store hfrom (fun _ => later_of_same rfl rfl)) (fun _ => ?_)
        refine .bind (.atomic (Q := fun _ _ => True) ?_ (fun _ _ _ => trivial)
          (fun _ => Stable.true)) (fun _ => .pure (fun _ _ => trivial))
        intro s _ hs
        refine later_swapClientConn none ?_
        intro r hr
        cases hr
        exact hs

theorem dropConn_safe (c : UInt64) (conn : ConnRef) :
    Safe (front P) (fun _ => True) (dropConn c conn) (fun _ _ => True) := by
  refine .store Stable.true ?_
  intro s
  split
  · exact later_dropped s c
  · exact Later.refl s

theorem clearTransport_safe (c : UInt64) (flagged : Nat) :
    Safe (front P) (fun _ => True) (clearTransport P c flagged) (fun _ _ => True) := by
  unfold clearTransport
  refine .bind ((setAuthedAddr_safe none _).strengthen (fun _ _ r hr => by cases hr)) (fun _ => ?_)
  refine .bind ((setClientAddr_safe none _).strengthen (fun _ _ r hr => by cases hr)) (fun _ => ?_)
  exact .bind (.atomic (Q := fun _ _ => True)
    (fun _ _ _ => later_swapClientConn _ (fun r hr => by cases hr)) (fun _ _ _ => trivial)
    (fun _ => Stable.true)) (fun _ => .pure (fun _ _ => trivial))

theorem timeoutEvent_safe (c : UInt64) :
    Safe (front P) (fun _ => True) (timeoutEvent P c) (fun _ _ => True) := by
  unfold timeoutEvent
  refine .bind (.atomic (Q := fun _ _ => True) ?_ (fun _ _ _ => trivial)
    (fun _ => Stable.true)) ?_
  · intro s _ _
    split
    · exact Later.refl s
    · exact later_modifyClient ({ · with timeoutFlag := true }) (fun _ => ⟨rfl, rfl, rfl, rfl⟩) s c
  · intro flagged
    match flagged with
    | none => exact .pure (fun _ _ => trivial)
    | some n => exact clearTransport_safe c n

/-- **Every goroutine respects the relation.** -/
theorem goroutine_safe (g : Goroutine) :
    Safe (front P) (fun _ => True) (g.prog P) (fun _ _ => True) := by
  match g with
  | .readFrom d => exact .bind (readFrom_safe d) (fun _ => .pure (fun _ _ => trivial))
  | .initConn =>
    show Safe (front P) (fun _ => True) (initConn P none) (fun _ _ => True)
    refine Safe.strengthen (initConn_safe ?_) ?_
    · intro _ _ _ h
      cases h
    · intro _ _ _ h
      cases h
  | .probeAuth d => exact probeAuth_safe d
  | .handshake h => exact handshake_safe h
  | .dropConn c conn => exact dropConn_safe c conn
  | .timeoutEvent c => exact timeoutEvent_safe c
  | .setReconnected c =>
    exact .store Stable.true (fun s => later_modifyClient ({ · with timeoutFlag := false })
      (fun _ => ⟨rfl, rfl, rfl, rfl⟩) s c)

end Programs

/-! ## Runs -/

theorem logInv_init : LogInv P {} where
  log := ⟨by simp, by simp, by simp, by simp, by simp, by simp⟩
  client := fun _ => ⟨by simp, by simp, by simp, by simp⟩

theorem frontEnds_inv {p : Pool State} (hp : (frontEnds P).Reachable p) : LogInv P p.shared :=
  (pool_safe (front P) logInv_init goroutine_safe hp).1

/-- The `i`-th accepted authentication: an authentic packet for client `c`, received from
    `source`, with a serial number above all that were accepted for `c` before. -/
def FreshAuth (P : ServerProxy Key) (log : Log) (c : UInt64) (source : Source) (i : Nat) : Prop :=
  ∃ e, log.accepted[i]? = some e ∧ e.client = c ∧ (source, e.packet) ∈ log.received ∧
    P.Authentic c e.serial e.packet ∧
    ∀ j < i, ∀ e', log.accepted[j]? = some e' → e'.client = c → e'.serial < e.serial

theorem Log.Ok.fresh {log : Log} (h : log.Ok P) {source : Source} {i : Nat}
    (hfrom : log.AcceptedFrom c source i) : FreshAuth P log c source i := by
  obtain ⟨e, he, hc, hsrc, hren⟩ := hfrom
  obtain ⟨hauth, hrecv⟩ := h.authentic e (List.mem_of_getElem? he)
  refine ⟨e, he, hc, hsrc ▸ hrecv, hc ▸ hauth, ?_⟩
  intro j hj e' he' hc'
  exact (h.ordered j i e' e hj he' he (hc'.trans hc.symm)).2 hren

/-- **Only fresh authentications count.**  In every step of every interleaving, the serial
    number of a client does not decrease.  After it, the client's authenticated address and
    its connection are those of an authentic packet with a fresh serial number, received from
    that address or connection, and its active address is one that its authenticated address
    held. -/
theorem accepts_only_fresh_auths {p p' : Pool State} {l : Sched Goroutine}
    (hp : (frontEnds P).Reachable p) (hstep : (frontEnds P).step p l p') (c : UInt64) :
    (p.shared.clients c).serialNumber ≤ (p'.shared.clients c).serialNumber ∧
    (∀ r, (p'.shared.clients c).authedAddr = some r →
      FreshAuth P p'.shared.log c (.udp r.addr) r.auth) ∧
    (∀ r, (p'.shared.clients c).clientConn = some r →
      FreshAuth P p'.shared.log c (.tcp r.conn) r.auth) ∧
    (∀ r, (p'.shared.clients c).clientAddr = some r → (c, r) ∈ p'.shared.log.held) := by
  have hlater := pool_step_respects (front P) logInv_init goroutine_safe hp hstep
  have hinv : LogInv P p'.shared := hlater.inv (frontEnds_inv hp)
  have hc := hinv.client c
  refine ⟨hlater.serial c, ?_, ?_, hc.active⟩
  · intro r hr
    exact hinv.log.fresh (hinv.log.held (c, r) (hc.authed r hr))
  · intro r hr
    exact hinv.log.fresh (hinv.log.installs (c, r) (hc.conn r hr))

/-- The first authentication of a client, up to the step that stores its address. -/
theorem accepts_only_fresh_auths_first :
    ∃ p p', runLabels (poolStep (Goroutine.prog (xorProxy true))) { shared := {}, threads := [] }
        ([.spawn .initConn, .run 0, .spawn (.readFrom (authFrom 1 7 3))] ++
          List.replicate 10 (.run 1)) = some p ∧
      poolStep (Goroutine.prog (xorProxy true)) p (.run 1) = some p' ∧
      (p.shared.clients 7).authedAddr = none ∧
      (p'.shared.clients 7).authedAddr = some { addr := addrAt 1, auth := 0 } ∧
      FreshAuth (xorProxy true) p'.shared.log 7 (.udp (addrAt 1)) 0 := by
  have hrun : ∃ p p', runLabels (poolStep (Goroutine.prog (xorProxy true)))
        { shared := {}, threads := [] }
        ([.spawn .initConn, .run 0, .spawn (.readFrom (authFrom 1 7 3))] ++
          List.replicate 10 (.run 1)) = some p ∧
      poolStep (Goroutine.prog (xorProxy true)) p (.run 1) = some p' ∧
      (p.shared.clients 7).authedAddr = none ∧
      (p'.shared.clients 7).authedAddr = some { addr := addrAt 1, auth := 0 } :=
    ⟨_, _, rfl, rfl, by decide +kernel, by decide +kernel⟩
  obtain ⟨p, p', hp, hstep, hbefore, hafter⟩ := hrun
  have hreach : (frontEnds (xorProxy true)).Reachable p :=
    .of_runLabels (fun _ _ _ h => h) (.init rfl) hp
  exact ⟨p, p', hp, hstep, hbefore, hafter,
    (accepts_only_fresh_auths hreach hstep 7).2.1 _ hafter⟩

end Proxy
