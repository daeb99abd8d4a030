import Tssh.Proxy.Acceptance

/-! # Races Between Handshakes and Timeouts

    Two windows between a decision and its effect:

    * A handshake claims its serial number at one moment and installs its
      connection at a later one.  A handshake with a smaller serial number may
      install last, and then closes the connection with the larger one.
    * A timeout is flagged at one moment and its callback clears the client's
      transport at a later one.  It clears what is there then, also what was
      authenticated in between.

    The theorems say in which runs this does not happen:

    * `replaced_serial_smaller`: if the connections of a client are installed in
      the order in which their serial numbers were accepted.
    * `cleared_auth_not_newer`: if no authentication of the client is accepted
      while its timeout callback is on the way.
-/

open Go LTS

namespace Proxy

variable {Key : Type} {P : ServerProxy Key} {p : Pool State}

/-! ## Handshakes -/

/-- The serial number of the `i`-th accepted authentication. -/
def Log.serialOf (log : Log) (i : Nat) : Option UInt64 := log.accepted[i]?.map (·.serial)

/-- The connections of each client were installed in the order in which their
    authentications were accepted. -/
def Log.InstalledInOrder (log : Log) : Prop :=
  log.installs.Pairwise (fun x y => x.1 = y.1 → x.2.auth < y.2.auth)

/-- **Handshakes that install in order.**  In a run in which the connections of each client
    are installed in the order of their acceptance, a connection is only ever replaced by one
    with a larger serial number. -/
theorem replaced_serial_smaller (hp : (frontEnds P).Reachable p)
    (horder : p.shared.log.InstalledInOrder) :
    ∀ x ∈ p.shared.log.replaced, ∃ m n, p.shared.log.serialOf x.2.1.auth = some m ∧
      p.shared.log.serialOf x.2.2.auth = some n ∧ m < n := by
  intro ⟨c, old, new⟩ hx
  have hlog := (frontEnds_inv hp).log
  have hsub := hlog.replaced _ hx
  have hlt : old.auth < new.auth := by
    have hpair := horder.sublist hsub
    simpa using hpair
  obtain ⟨e, he, hc, _⟩ := hlog.installs (c, old) (hsub.subset (by simp))
  obtain ⟨e', he', hc', _, hren⟩ := hlog.installs (c, new) (hsub.subset (by simp))
  refine ⟨e.serial, e'.serial, by simp [Log.serialOf, he], by simp [Log.serialOf, he'], ?_⟩
  exact (hlog.ordered old.auth new.auth e e' hlt he he' (hc.trans hc'.symm)).2 hren

/-- The handshake of client `7` with serial number `serial` on connection `conn`. -/
def handshakeOn (conn : Nat) (serial : UInt64) : Goroutine :=
  .handshake
    { conn := conn
      buf := (xorProxy true).aesEncrypt zeroNonce (putUint64 7 ++ putUint64 serial)
      nonce := zeroNonce
      writeOk := true }

/-- A run of the front ends with the one-byte cipher. -/
def runFrontEnds (ls : List (Sched Goroutine)) : Option (Pool State) :=
  runLabels (poolStep (Goroutine.prog (xorProxy true))) { shared := {}, threads := [] } ls

theorem runFrontEnds_reachable {ls : List (Sched Goroutine)} (h : runFrontEnds ls = some p) :
    (frontEnds (xorProxy true)).Reachable p :=
  .of_runLabels (fun _ _ _ h => h) (.init rfl) h

/-- Two handshakes, one after the other. -/
def inOrder : List (Sched Goroutine) :=
  [Sched.spawn (handshakeOn 1 1)] ++ List.replicate 6 (Sched.run 0) ++
    [Sched.spawn (handshakeOn 2 2)] ++ List.replicate 6 (Sched.run 1)

theorem replaced_serial_smaller_in_order :
    ∃ p, runFrontEnds inOrder = some p ∧
      (7, { conn := 1, auth := 0 }, { conn := 2, auth := 1 }) ∈ p.shared.log.replaced ∧
      ∀ x ∈ p.shared.log.replaced, ∃ m n, p.shared.log.serialOf x.2.1.auth = some m ∧
        p.shared.log.serialOf x.2.2.auth = some n ∧ m < n := by
  have hrun : ∃ p, runFrontEnds inOrder = some p ∧
      (7, { conn := 1, auth := 0 }, { conn := 2, auth := 1 }) ∈ p.shared.log.replaced ∧
      p.shared.log.InstalledInOrder :=
    ⟨_, rfl, by decide +kernel, by unfold Log.InstalledInOrder; decide +kernel⟩
  obtain ⟨p, hp, hmem, horder⟩ := hrun
  exact ⟨p, hp, hmem, replaced_serial_smaller (runFrontEnds_reachable hp) horder⟩

/-- The first handshake claims serial number `1` and stops before it sends its response; the
    second one claims `2` and installs its connection; then the first one goes on. -/
def overtaken : List (Sched Goroutine) :=
  [Sched.spawn (handshakeOn 1 1), Sched.spawn (handshakeOn 2 2)] ++
    List.replicate 4 (Sched.run 0) ++ List.replicate 6 (Sched.run 1) ++
    List.replicate 2 (Sched.run 0)

/-- The connection with serial number `2` is replaced by the one with serial number `1`. -/
theorem replaced_serial_larger_overtaken :
    ¬ ∀ p, (frontEnds (xorProxy true)).Reachable p → ∀ x ∈ p.shared.log.replaced,
      ¬ ∃ m n, p.shared.log.serialOf x.2.1.auth = some m ∧
        p.shared.log.serialOf x.2.2.auth = some n ∧ n < m := by
  intro hincreasing
  have hrun : ∃ p, runFrontEnds overtaken = some p ∧
      (7, { conn := 2, auth := 1 }, { conn := 1, auth := 0 }) ∈ p.shared.log.replaced ∧
      p.shared.log.serialOf 1 = some 2 ∧ p.shared.log.serialOf 0 = some 1 :=
    exists_of_runLabels (by decide +kernel)
  obtain ⟨p, hp, hmem, hold, hnew⟩ := hrun
  exact hincreasing p (runFrontEnds_reachable hp) _ hmem ⟨2, 1, hold, hnew, by decide⟩

/-! ## Timeouts -/

/-- No authentication of the client was accepted between the moment a timeout was flagged and
    the moment its callback cleared. -/
def Log.QuietTimeouts (log : Log) : Prop :=
  ∀ x ∈ log.cleared, ∀ (j : Nat) (e : Accepted), x.flagged ≤ j → j < x.cleared →
    log.accepted[j]? = some e → e.client ≠ x.client

/-- **Timeouts of silent clients.**  In a run in which a client authenticates anew only after
    the callback of its timeout is done, the callback clears only what was authenticated
    before the timeout was flagged. -/
theorem cleared_auth_not_newer (hp : (frontEnds P).Reachable p)
    (hquiet : p.shared.log.QuietTimeouts) :
    ∀ x ∈ p.shared.log.cleared, x.auth < x.flagged := by
  intro x hx
  obtain ⟨hlt, e, he, hc⟩ := (frontEnds_inv hp).log.cleared x hx
  by_contra hle
  exact hquiet x hx x.auth e (by omega) hlt he hc

/-- Client `7` authenticates from port `1` and becomes active there; its timeout is
    flagged. -/
def timeoutFlagged : List (Sched Goroutine) :=
  [Sched.spawn Goroutine.initConn, Sched.run 0,
      Sched.spawn (Goroutine.readFrom (authFrom 1 7 3))] ++ List.replicate 14 (Sched.run 1) ++
    [Sched.spawn (Goroutine.readFrom { authFrom 1 7 3 with buf := [0] })] ++
    List.replicate 14 (Sched.run 2) ++ [Sched.spawn (Goroutine.timeoutEvent 7), Sched.run 3]

/-- The callback runs at once and clears the address of the client. -/
theorem cleared_auth_not_newer_silent :
    ∃ p, runFrontEnds (timeoutFlagged ++ List.replicate 6 (.run 3)) = some p ∧
      p.shared.log.cleared.length = 1 ∧ ∀ x ∈ p.shared.log.cleared, x.auth < x.flagged := by
  have hrun : ∃ p, runFrontEnds (timeoutFlagged ++ List.replicate 6 (.run 3)) = some p ∧
      p.shared.log.cleared.length = 1 ∧ p.shared.log.accepted.length = 1 ∧
      ∀ x ∈ p.shared.log.cleared, x.flagged = 1 :=
    exists_of_runLabels (by decide +kernel)
  obtain ⟨p, hp, hlen, hacc, hflagged⟩ := hrun
  refine ⟨p, hp, hlen, cleared_auth_not_newer (runFrontEnds_reachable hp) ?_⟩
  intro x hx j e hj _ he
  have hj' := (List.getElem?_eq_some_iff.mp he).1
  rw [hflagged x hx] at hj
  omega

/-- The client authenticates again from port `2` before the callback runs: the callback clears
    the new address. -/
theorem cleared_auth_newer_returning :
    ¬ ∀ p, (frontEnds (xorProxy true)).Reachable p →
      ∀ x ∈ p.shared.log.cleared, x.auth < x.flagged := by
  intro holder
  have hrun : ∃ p, runFrontEnds (timeoutFlagged ++
        [Sched.spawn (Goroutine.readFrom (authFrom 2 7 4))] ++
        List.replicate 14 (Sched.run 4) ++ List.replicate 2 (Sched.run 3)) = some p ∧
      ∃ x ∈ p.shared.log.cleared, ¬ x.auth < x.flagged :=
    exists_of_runLabels (by decide +kernel)
  obtain ⟨p, hp, x, hx, hnot⟩ := hrun
  exact hnot (holder p (runFrontEnds_reachable hp) x hx)

end Proxy
