import Tssh.Proxy.Addresses

/-! # Which Authentication Packets Are Answered

    A client renews its path by sending authentication packets with growing serial
    numbers until the server answers.  `readFrom` looks at the source address
    first: from an address that is authenticated or unknown, a newer packet is
    recorded and answered; from the address the client is active on, every packet
    is forwarded unread.

    * `auth_packet_answered_iff`: a newer packet is answered exactly when it does
      not come from the client's active address.
-/

open Go Index LTS Prog

namespace Proxy

variable {Key : Type} {P : ServerProxy Key} {s : State} {c : UInt64}

/-- In either mode, the lookup of an address that belongs to no other client. -/
theorem run_getClient_own (hinv : P.attachable = true → AddrInv s) {a : UDPAddr}
    (hserved : P.attachable = true ∨ c = P.clientID)
    (hother : ∀ c', c' ≠ c → ∀ role, s.addrOf role c' ≠ some a) :
    (((getClient P a).run s).1 =
      if s.addrOf .client c = some a then .active c
      else if s.addrOf .authed c = some a then .authed c
      else .unknown) ∧
      ∃ cache, ((getClient P a).run s).2 = { s with cacheClient := cache } := by
  cases hatt : P.attachable with
  | true =>
    have h := hinv hatt
    obtain ⟨hscan, hstate⟩ := h.run_getClient hatt a
    refine ⟨?_, hstate⟩
    rw [hscan]
    split
    · next hc => exact h.scan_active hc
    · next hclient =>
      split
      · next hc => exact h.scan_authed hc
      · next hauthed =>
        apply h.scan_unknown
        intro role c' hc'
        by_cases hcc : c' = c
        · subst hcc
          cases role with
          | client => exact hclient hc'
          | authed => exact hauthed hc'
        · exact hother c' hcc role hc'
  | false =>
    have hc : c = P.clientID := by
      rcases hserved with h | h
      · rw [hatt] at h; cases h
      · exact h
    have hrun : (getClient P a).run s = (compareAddrs c a (pure .unknown)).run s := by
      simp [getClient, hatt, hc]
    rw [hrun, run_compareAddrs]
    split
    · exact ⟨rfl, s.cacheClient, rfl⟩
    · split
      · exact ⟨rfl, s.cacheClient, rfl⟩
      · exact ⟨rfl, s.cacheClient, rfl⟩

/-- The serial number `serial` of `c` is recorded, and a response that carries it has been
    sent to the source of `d`. -/
def Answered (P : ServerProxy Key) (d : Datagram) (c serial : UInt64) (s s' : State) : Prop :=
  (s'.clients c).serialNumber = serial ∧
    s'.sent = s.sent ++ [(.udp d.addr, P.sealAuthPacket d.nonce serial)]

theorem serialNumber_accept (e : Accepted) :
    ((s.accept e).clients e.client).serialNumber = e.serial := by
  show (Function.update s.clients e.client _ e.client).serialNumber = _
  rw [Function.update_self]

theorem readAuthed_answered {d : Datagram} {serial : UInt64}
    (hopen : P.openAuthPacket d.buf = some (c, serial))
    (hnew : (s.clients c).serialNumber < serial) :
    Answered P d c serial s ((readAuthed P d c).run s).2 := by
  rw [run_readAuthed hopen, if_neg (UInt64.not_lt.mpr (UInt64.le_of_lt hnew))]
  exact ⟨serialNumber_accept _, rfl⟩

theorem readUnknown_answered {d : Datagram} {serial : UInt64}
    (hopen : P.openAuthPacket d.buf = some (c, serial))
    (hnew : (s.clients c).serialNumber < serial) :
    Answered P d c serial s ((readUnknown P d).run s).2 := by
  rw [run_readUnknown hopen, if_neg (UInt64.not_le.mpr hnew)]
  obtain ⟨known, heq, _⟩ := joined_eq (P := P) (s := s) c
  simp only [respond, run_store, authenticated, run_setAuthedAddr]
  refine ⟨?_, ?_⟩
  · simp [State.swapAuthedAddr, State.modifyClient, State.accept]
  · show (joined P c s).sent ++ _ = _
    rw [heq]

/-- **Newer authentication packets are answered, except on the active path.**  An authentic
    packet of `c` with a serial number above the recorded one arrives from an address that no
    other client has.  After the iteration of `readFrom` the number is recorded and the
    response sent, exactly when the address is not the one `c` is active on. -/
theorem auth_packet_answered_iff (hs : (udpFrontend P).Reachable s) (hconn : s.conn = true)
    {d : Datagram} {serial : UInt64} (hauth : P.Authentic c serial d.buf)
    (hnew : (s.clients c).serialNumber < serial)
    (hother : ∀ c', c' ≠ c → ∀ role, s.addrOf role c' ≠ some d.addr) :
    Answered P d c serial s ((readFrom P d).run s).2 ↔ s.addrOf .client c ≠ some d.addr := by
  have hopen := ServerProxy.openAuthPacket_iff.mpr hauth
  have hinv : P.attachable = true → AddrInv (s.receive (.udp d.addr) d.buf) := by
    intro hatt
    exact (udpFrontend_inv hatt hs).receive (.udp d.addr) d.buf
  obtain ⟨hlook, cache, hstate⟩ := run_getClient_own (c := c) hinv hauth.1 hother
  have hreceive : ∀ role, (s.receive (.udp d.addr) d.buf).addrOf role = s.addrOf role :=
    fun _ => rfl
  rw [hreceive, hreceive] at hlook
  simp only [readFrom, run_bind, run_load, hconn, if_true, run_store, hlook, hstate]
  by_cases hactive : s.addrOf .client c = some d.addr
  · -- the packet is forwarded: no serial number changes
    rw [if_pos hactive]
    refine ⟨fun h => ?_, fun h => absurd hactive h⟩
    have hserial : (s.clients c).serialNumber = serial := h.1
    rw [hserial] at hnew
    exact absurd hnew (UInt64.lt_irrefl serial)
  · rw [if_neg hactive]
    refine ⟨fun _ => hactive, fun _ => ?_⟩
    split
    · next h => split at h <;> cases h
    · next c' h =>
      have hc : c = c' := by
        split at h
        · exact Lookup.authed.inj h
        · cases h
      subst hc
      exact readAuthed_answered hopen hnew
    · exact readUnknown_answered hopen hnew

/-- The first authentication of a client, from an unknown address. -/
theorem auth_packet_answered_first :
    Answered (xorProxy true) (authFrom 1 7 3) 7 3 { conn := true }
      ((readFrom (xorProxy true) (authFrom 1 7 3)).run { conn := true }).2 := by
  have hreach : (udpFrontend (xorProxy true)).Reachable { conn := true } :=
    .step (.initConn none) (.init rfl) rfl
  refine (auth_packet_answered_iff hreach rfl ?_ (by decide) ?_).mpr ?_
  · exact ⟨.inl rfl, zeroNonce, rfl, rfl⟩
  · intro c' _ role hc'
    cases role <;> cases hc'
  · intro hc
    cases hc

/-- Client `7` is active on port `1` and renews its authentication from there: the packet is
    forwarded, the serial number stays at `3` and nothing is sent. -/
theorem auth_packet_unanswered_on_active_path :
    ¬ ∀ (s : State) (c serial : UInt64) (d : Datagram),
      (udpFrontend (xorProxy true)).Reachable s → s.conn = true →
      (xorProxy true).Authentic c serial d.buf → (s.clients c).serialNumber < serial →
      (∀ c', c' ≠ c → ∀ role, s.addrOf role c' ≠ some d.addr) →
      Answered (xorProxy true) d c serial s ((readFrom (xorProxy true) d).run s).2 := by
  intro hanswers
  have hrun : ∃ s, runLabels (fun s l => some (((UdpStep.prog (xorProxy true)) l).run s).2) {}
      (activeAndAuthed.take 3) = some s ∧ s.conn = true ∧ (s.clients 7).serialNumber = 3 ∧
        s.addrOf .client 7 = some (addrAt 1) ∧
        (((readFrom (xorProxy true) (authFrom 1 7 4)).run s).2.clients 7).serialNumber = 3 :=
    ⟨_, rfl, rfl, by decide +kernel, by decide +kernel, by decide +kernel⟩
  obtain ⟨s, hs, hconn, hserial, haddr, hafter⟩ := hrun
  have hreach : (udpFrontend (xorProxy true)).Reachable s :=
    .of_runLabels (fun _ _ _ h => h) (.init rfl) hs
  have hinv := udpFrontend_inv rfl hreach
  have hanswered := hanswers s 7 4 (authFrom 1 7 4) hreach hconn ⟨.inl rfl, zeroNonce, rfl, rfl⟩
    (by rw [hserial]; decide) (by
      intro c' hne role hc'
      cases role with
      | client => exact hne ((hinv.index .client).unique hc' haddr)
      | authed => exact hinv.disjoint 7 c' (addrAt 1) haddr hc')
  have hfour := hanswered.1
  rw [hafter] at hfour
  exact absurd hfour (by decide)

end Proxy
