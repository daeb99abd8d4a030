import Tssh.Forward.PacketConn

/-! # The Order of the Packets of a Connection

    A packet that the goroutine of a `packetConn` has put into `streamCh` can be overtaken: a
    `Consume` that starts while it lies there gets the next packet from the goroutine itself.
    So the order of the stream is kept where nobody starts a `Consume` beside other calls.  Both
    callers of the source make one `Consume` call for each connection (`forwardUDP` and
    `handleAcceptUdpEvent` in `tsshd/datagram.go`).

    * `stream_packets_in_order`: with one `Consume`, or with `Read` only, the packets are handed
      out in the order of the stream.
-/

open LTS Go

namespace PacketConns

/-! ## Runs -/

/-- `Consume` is the first call and the last, or all calls are `Read`s. -/
def OneWay (s : State) : Label → Prop
  | .call _ .consume => s.begun = []
  | .call _ (.read _) => .consume ∉ s.begun
  | _ => True

instance : ∀ (s : State) (l : Label), Decidable (OneWay s l)
  | s, .call _ .consume => inferInstanceAs (Decidable (s.begun = []))
  | s, .call _ (.read _) => inferInstanceAs (Decidable (Kind.consume ∉ s.begun))
  | _, .step _ => .isTrue trivial
  | _, .recvChannel _ => .isTrue trivial
  | _, .recvStream _ => .isTrue trivial
  | _, .callbackReturns _ _ => .isTrue trivial
  | _, .recvUdpPacket _ => .isTrue trivial
  | _, .reader => .isTrue trivial
  | _, .readerReturns _ => .isTrue trivial
  | _, .readerSends => .isTrue trivial
  | _, .readerStops => .isTrue trivial
  | _, .datagram _ => .isTrue trivial
  | _, .closeChannel => .isTrue trivial
  | _, .close _ => .isTrue trivial
  | _, .closeStep _ => .isTrue trivial

/-- A `Consume` that has not stored its callback yet. -/
def Call.early : Call → Bool
  | .lock .consume => true
  | .testClosed .consume => true
  | .storeFn => true
  | _ => false

/-- The packets in order.  A packet goes into `streamCh` only where no `Consume` has its callback
    stored, or will store it. -/
structure Ordered (s : State) : Prop where
  order : s.handed.map Prod.snd ++ s.streamCh.queue ++ s.reader.hand ++ s.dropped = s.taken
  fresh : s.reader = .unstarted → s.streamCh.queue = []
  unbegun : s.begun = [] → (∀ i, s.calls i = .out) ∧ s.reader = .unstarted
  begun : ∀ i, (s.calls i).early = true ∨ (s.calls i).stored = true → .consume ∈ s.begun
  early : ∀ i, (s.calls i).early = true → s.reader = .unstarted ∧ ∀ j ≠ i, s.calls j = .out
  stored : ∀ i, (s.calls i).stored = true →
    s.streamCh.queue = [] ∧ (∀ buf, s.reader ≠ .send buf) ∧ ∀ j ≠ i, s.calls j = .out
  direct : ∀ buf i, s.reader = .call buf i → s.streamCh.queue = []

namespace Ordered

variable {s s' : State} {i : Nat}

theorem new (registered : Bool) : Ordered (newPacketConn registered) :=
  ⟨rfl, fun _ => rfl, fun _ => ⟨fun _ => rfl, rfl⟩, fun _ h => h.elim nofun nofun, nofun, nofun,
    nofun⟩

/-- Beside a call that goes on there is no `Consume` under way. -/
theorem alone (h : Ordered s) (hout : s.calls i ≠ .out) {k : Nat}
    (hk : (s.calls k).early = true ∨ (s.calls k).stored = true) : k = i := by
  by_contra hne
  rcases hk with hk | hk
  · exact hout ((h.early k hk).2 i (Ne.symm hne))
  · exact hout ((h.stored k hk).2.2 i (Ne.symm hne))

/-- A call goes on, and does not store its callback. -/
theorem moveCall (h : Ordered s) {c : Call} (hout : s.calls i ≠ .out)
    (hearly : c.early = true → (s.calls i).early = true)
    (hstored : c.stored = true → (s.calls i).stored = true) : Ordered (s.setCall i c) := by
  have hothers : ∀ {k : Nat}, (∀ j ≠ k, s.calls j = .out) → k = i →
      ∀ j ≠ k, Function.update s.calls i c j = .out := by
    intro k hall heq j hj
    rw [Function.update_of_ne (heq ▸ hj)]
    exact hall j hj
  have hback : ∀ k, (Function.update s.calls i c k).early = true → (s.calls k).early = true := by
    intro k hk
    by_cases heq : k = i
    · subst heq
      rw [Function.update_self] at hk
      exact hearly hk
    · rwa [Function.update_of_ne heq] at hk
  have hback' : ∀ k, (Function.update s.calls i c k).stored = true → (s.calls k).stored = true := by
    intro k hk
    by_cases heq : k = i
    · subst heq
      rw [Function.update_self] at hk
      exact hstored hk
    · rwa [Function.update_of_ne heq] at hk
  refine { h with unbegun := ?_, begun := ?_, early := ?_, stored := ?_ }
  · intro hnil
    exact absurd ((h.unbegun hnil).1 i) hout
  · intro k hk
    exact h.begun k (hk.imp (hback k) (hback' k))
  · intro k hk
    obtain ⟨hreader, hall⟩ := h.early k (hback k hk)
    exact ⟨hreader, hothers hall (h.alone hout (.inl (hback k hk)))⟩
  · intro k hk
    obtain ⟨hqueue, hsend, hall⟩ := h.stored k (hback' k hk)
    exact ⟨hqueue, hsend, hothers hall (h.alone hout (.inr (hback' k hk)))⟩

/-- The one `Consume` stores its callback before the goroutine is started. -/
theorem storeFn (h : Ordered s) (hcall : s.calls i = .storeFn) :
    Ordered (s.setCall i (.startReader .consume)) := by
  obtain ⟨hreader, hall⟩ := h.early i (by rw [hcall]; rfl)
  have hother : ∀ j ≠ i, Function.update s.calls i (.startReader .consume) j = .out := by
    intro j hj
    rw [Function.update_of_ne hj]
    exact hall j hj
  refine { h with unbegun := ?_, begun := ?_, early := ?_, stored := ?_ }
  · intro hnil
    have hout := (h.unbegun hnil).1 i
    rw [hcall] at hout
    cases hout
  · intro k _
    exact h.begun i (.inl (by rw [hcall]; rfl))
  · intro k hk
    by_cases heq : k = i
    · subst heq
      simp only [State.setCall, Function.update_self] at hk
      cases hk
    · simp only [State.setCall, hother k heq] at hk
      cases hk
  · intro k hk
    by_cases heq : k = i
    · subst heq
      exact ⟨h.fresh hreader, fun buf hsend => absurd (hreader.symm.trans hsend) (by simp), hother⟩
    · simp only [State.setCall, hother k heq] at hk
      cases hk

theorem startStreamReader (h : Ordered s) (hcall : s.calls i ≠ .out)
    (hlate : (s.calls i).early = false) : Ordered (startStreamReader s) := by
  unfold PacketConns.startStreamReader
  split
  · next hreader =>
    have horder := h.order
    rw [hreader] at horder
    refine { h with
      order := horder
      fresh := nofun
      unbegun := ?_
      early := ?_
      stored := fun k hk => ⟨(h.stored k hk).1, nofun, (h.stored k hk).2.2⟩
      direct := nofun }
    · intro hnil
      exact absurd ((h.unbegun hnil).1 i) hcall
    · intro k hk
      rw [h.alone hcall (.inl hk), hlate] at hk
      cases hk
  · exact h

theorem callStep (h : Ordered s) (hstep : callStep s i = some s') : Ordered s' := by
  unfold PacketConns.callStep at hstep
  cases hcall : s.calls i with
  | lock kind =>
    rw [hcall] at hstep
    simp only [Option.ite_none_right_eq_some, Option.some.injEq] at hstep
    obtain ⟨-, rfl⟩ := hstep
    refine Ordered.moveCall (s := { s with readMutex := some i }) { h with } ?_ ?_
      (by simp [Call.stored])
    · simp [hcall]
    -- a `Consume` has not stored its function yet; a `Read` stores none
    · simp only [hcall]
      cases kind
      · exact id
      · simp [Call.early]
  | testClosed kind =>
    simp only [hcall] at hstep
    have hout : s.calls i ≠ .out := by simp [hcall]
    split at hstep
    · cases hstep
      exact h.moveCall hout (by simp [Call.early]) (by simp [Call.stored])
    · cases hstep
      rw [Kind.enter.eq_def]
      cases kind with
      | consume => exact h.moveCall hout (fun _ => by rw [hcall]; rfl) (by simp [Call.stored])
      | read size => exact h.moveCall hout (by simp [Call.early]) (by simp [Call.stored])
  | storeFn =>
    rw [hcall] at hstep
    cases hstep
    exact Ordered.storeFn (s := { s with consumeFn := some i }) { h with } hcall
  | startReader kind =>
    rw [hcall] at hstep
    cases hstep
    have hstarted := h.startStreamReader (i := i) (by simp [hcall])
      (by rw [hcall]; cases kind <;> rfl)
    -- starting the reader moves no call
    have hcalls : (PacketConns.startStreamReader s).calls = s.calls := by
      unfold PacketConns.startStreamReader
      split <;> rfl
    refine hstarted.moveCall (by simp [hcalls, hcall]) (by simp [Call.early]) ?_
    rw [hcalls, hcall]
    cases kind
    · exact id
    · simp [Call.stored]
  | clearFn r =>
    rw [hcall] at hstep
    cases hstep
    exact Ordered.moveCall (s := { s with consumeFn := none }) { h with } (by simp [hcall])
      (by simp [Call.early]) (by simp [Call.stored])
  | unlock r =>
    rw [hcall] at hstep
    cases hstep
    exact Ordered.moveCall (s := { s with readMutex := none }) { h with } (by simp [hcall])
      (by simp [Call.early]) (by simp [Call.stored])
  | out => rw [hcall] at hstep; cases hstep
  | select kind => rw [hcall] at hstep; cases hstep
  | callback => rw [hcall] at hstep; cases hstep
  | returned r => rw [hcall] at hstep; cases hstep

/-- A call leaves its `select`. -/
theorem leaveSelect (h : Ordered s) {kind : Kind} (hcall : s.calls i = .select kind) :
    Ordered (s.setCall i kind.atEnd) ∧ ∀ buf, Ordered (s.setCall i (kind.received buf)) := by
  have hout : s.calls i ≠ .out := by rw [hcall]; nofun
  cases kind with
  | consume =>
    exact ⟨h.moveCall hout nofun (fun _ => by rw [hcall]; rfl),
      fun _ => h.moveCall hout nofun (fun _ => by rw [hcall]; rfl)⟩
  | read size => exact ⟨h.moveCall hout nofun nofun, fun _ => h.moveCall hout nofun nofun⟩

theorem recvChannel (h : Ordered s) (hstep : recvChannel s i = some s') : Ordered s' := by
  unfold PacketConns.recvChannel at hstep
  split at hstep
  · next kind ch hcall hch =>
    split at hstep
    · next buf ch' hrecv =>
      cases hstep
      exact (Ordered.leaveSelect (s := { s with
        channelCh := some ch'
        datagrams := s.datagrams ++ [(i, buf)] }) { h with } hcall).2 buf
    · cases hstep
      exact (h.leaveSelect hcall).1
    · cases hstep
  · cases hstep

theorem recvStream (h : Ordered s) (hstep : recvStream s i = some s') : Ordered s' := by
  unfold PacketConns.recvStream at hstep
  split at hstep
  · next kind hcall =>
    split at hstep
    · next buf ch' hrecv =>
      cases hstep
      obtain ⟨x, rest, hqueue, hr⟩ | ⟨-, -, hr⟩ := Chan.recv_cases hrecv
      · cases hr
        have hne : s.streamCh.queue ≠ [] := by rw [hqueue]; nofun
        refine (Ordered.leaveSelect (s := { s with
          streamCh := { s.streamCh with queue := rest }
          handed := s.handed ++ [(i, buf)] }) { h with
            order := ?_
            fresh := fun hreader => absurd (h.fresh hreader) hne
            stored := fun k hk => absurd (h.stored k hk).1 hne
            direct := fun p k hreader => absurd (h.direct p k hreader) hne } hcall).2 buf
        rw [← h.order, hqueue]
        simp
      · cases hr
    · cases hstep
      exact (h.leaveSelect hcall).1
    · cases hstep
  · cases hstep

theorem callbackReturns {ok : Bool} (h : Ordered s) (hstep : callbackReturns s i ok = some s') :
    Ordered s' := by
  unfold PacketConns.callbackReturns at hstep
  split at hstep
  · next hcall =>
    cases hstep
    refine h.moveCall (by rw [hcall]; nofun) ?_ (fun _ => by rw [hcall]; rfl)
    cases ok <;> nofun
  · cases hstep

/-- The goroutine goes on, and does not put a packet aside. -/
theorem moveReader (h : Ordered s) (r : Reader) (hstarted : s.reader ≠ .unstarted)
    {taken dropped : List Bytes} {handed : List (Nat × Bytes)}
    (horder : handed.map Prod.snd ++ s.streamCh.queue ++ r.hand ++ dropped = taken)
    (hr : r ≠ .unstarted) (hsend : ∀ i buf, (s.calls i).stored = true → r ≠ .send buf)
    (hdirect : ∀ buf i, r = .call buf i → s.streamCh.queue = []) (late : Nat → Nat) :
    Ordered { s with
      reader := r, taken := taken, dropped := dropped, handed := handed, late := late } where
  order := horder
  fresh := fun heq => absurd heq hr
  unbegun := fun hnil => absurd (h.unbegun hnil).2 hstarted
  begun := h.begun
  early := fun k hk => absurd (h.early k hk).1 hstarted
  stored := fun k hk => ⟨(h.stored k hk).1, fun buf => hsend k buf hk, (h.stored k hk).2.2⟩
  direct := hdirect

theorem recvUdpPacket {result : Option Bytes} (hinv : Inv s) (h : Ordered s)
    (hstep : recvUdpPacket s result = some s') : Ordered s' := by
  unfold PacketConns.recvUdpPacket at hstep
  have horder := h.order
  split at hstep
  · next buf hreader =>
    cases hstep
    refine h.moveReader (.load buf) (by simp [hreader]) ?_ (by simp) (by simp) (by simp)
      s.late
    rw [hinv.undropped (by simp [hreader]) (by simp [hreader]), hreader] at horder
    rw [← horder, hinv.undropped (by simp [hreader]) (by simp [hreader])]
    simp [Reader.hand]
  · next hreader =>
    cases hstep
    rw [hreader] at horder
    exact h.moveReader .close (by simp [hreader]) horder (by simp) (by simp) (by simp) s.late
  · cases hstep

theorem readerStep (hinv : Inv s) (h : Ordered s) (hstep : readerStep s = some s') :
    Ordered s' := by
  unfold PacketConns.readerStep at hstep
  have horder := h.order
  split at hstep
  · next buf hreader =>
    rw [hreader] at horder
    split at hstep
    · next k hfn =>
      cases hstep
      have hqueue := (h.stored k ((hinv.mutex.stored k).mpr hfn)).1
      exact h.moveReader (.call buf k) (by simp [hreader]) horder (by simp) (by simp)
        (fun _ _ _ => hqueue) s.late
    · next hfn =>
      cases hstep
      -- the packet is put aside: no callback is stored
      refine h.moveReader (.send buf) (by simp [hreader]) horder (by simp) ?_ (by simp) s.late
      intro k buf' hk
      have hstored := (hinv.mutex.stored k).mp hk
      rw [hfn] at hstored
      cases hstored
  · next buf k hreader =>
    cases hstep
    have hqueue := h.direct buf k hreader
    refine h.moveReader (.calling k) (by simp [hreader]) ?_ (by simp) (by simp) (by simp) _
    rw [hreader, hqueue] at horder
    rw [hqueue, ← horder]
    simp [Reader.hand]
  · next hreader =>
    rw [hreader] at horder
    unfold Chan.close at hstep
    split at hstep
    · next ch hclose =>
      cases hstep
      split at hclose
      · cases hclose
      · cases hclose
        have hmoved := h.moveReader .ended (by simp [hreader]) horder (by simp)
          (by simp) (by simp) s.late
        exact { hmoved with }
    · cases hstep
      exact { h with }
  · cases hstep

theorem readerSends (hinv : Inv s) (h : Ordered s) (hstep : readerSends s = some s') :
    Ordered s' := by
  unfold PacketConns.readerSends at hstep
  split at hstep
  · next buf hreader =>
    have hopen : s.streamCh.closed = false := by
      refine Bool.eq_false_iff.mpr fun hclosed => ?_
      have hended := hinv.ended.mp hclosed
      rw [hreader] at hended
      cases hended
    split at hstep
    · next ch hsend =>
      cases hstep
      cases Chan.send_of_open hopen hsend
      refine { h with
        order := ?_
        fresh := nofun
        unbegun := fun hnil => absurd (hreader.symm.trans (h.unbegun hnil).2) nofun
        early := fun k hk => absurd (hreader.symm.trans (h.early k hk).1) nofun
        stored := fun k hk => absurd hreader ((h.stored k hk).2.1 buf)
        direct := nofun }
      rw [← h.order, hreader, hinv.undropped (by rw [hreader]; nofun) (by rw [hreader]; nofun)]
      simp [Reader.hand]
    · cases hstep
      exact { h with }
    · cases hstep
  · cases hstep

theorem readerStops (hinv : Inv s) (h : Ordered s) (hstep : readerStops s = some s') :
    Ordered s' := by
  unfold PacketConns.readerStops at hstep
  split at hstep
  · next buf hreader =>
    simp only [Option.ite_none_right_eq_some, Option.some.injEq] at hstep
    obtain ⟨-, rfl⟩ := hstep
    refine h.moveReader .close (by simp [hreader]) ?_ (by simp) (by simp) (by simp) s.late
    rw [← h.order, hreader, hinv.undropped (by simp [hreader]) (by simp [hreader])]
    simp [Reader.hand]
  · cases hstep

/-- A new call, of the one kind that is allowed. -/
theorem call (h : Ordered s) {kind : Kind} (hok : OneWay s (.call i kind))
    (hout : s.calls i = .out) :
    Ordered ({ s with begun := s.begun ++ [kind] }.setCall i (.lock kind)) := by
  cases kind with
  | consume =>
    -- the first call of all
    obtain ⟨hall, hreader⟩ := h.unbegun hok
    have hlock : ∀ k, Function.update s.calls i (.lock .consume) k = .out ∨
        k = i ∧ Function.update s.calls i (.lock .consume) k = .lock .consume := by
      intro k
      by_cases heq : k = i
      · subst heq
        exact .inr ⟨rfl, Function.update_self ..⟩
      · exact .inl (by rw [Function.update_of_ne heq, hall k])
    refine { h with unbegun := ?_, begun := ?_, early := ?_, stored := ?_ }
    · intro hnil
      exact absurd hnil (List.append_ne_nil_of_right_ne_nil _ (List.cons_ne_nil _ _))
    · intro k _
      exact List.mem_append_right _ List.mem_cons_self
    · intro k hk
      refine ⟨hreader, fun j hj => ?_⟩
      rcases hlock j with hj' | ⟨rfl, -⟩
      · exact hj'
      · rcases hlock k with hk' | ⟨rfl, -⟩
        · simp only [State.setCall, hk'] at hk
          cases hk
        · exact absurd rfl hj
    · intro k hk
      rcases hlock k with hk' | ⟨-, hk'⟩
      · simp only [State.setCall, hk'] at hk
        cases hk
      · simp only [State.setCall, hk'] at hk
        cases hk
  | read size =>
    -- no `Consume` is under way
    have hok : Kind.consume ∉ s.begun := hok
    have hnone : ∀ k, (Function.update s.calls i (.lock (.read size)) k).early = false ∧
        (Function.update s.calls i (.lock (.read size)) k).stored = false := by
      intro k
      by_cases heq : k = i
      · subst heq
        rw [Function.update_self]
        exact ⟨rfl, rfl⟩
      · rw [Function.update_of_ne heq]
        exact ⟨Bool.eq_false_iff.mpr fun hk => hok (h.begun k (.inl hk)),
          Bool.eq_false_iff.mpr fun hk => hok (h.begun k (.inr hk))⟩
    refine { h with
      unbegun := ?_
      begun := ?_
      early := fun k hk => absurd ((hnone k).1.symm.trans hk) (by simp)
      stored := fun k hk => absurd ((hnone k).2.symm.trans hk) (by simp) }
    · intro hnil
      exact absurd hnil (List.append_ne_nil_of_right_ne_nil _ (List.cons_ne_nil _ _))
    · intro k hk
      rcases hk with hk | hk
      · exact absurd ((hnone k).1.symm.trans hk) (by simp)
      · exact absurd ((hnone k).2.symm.trans hk) (by simp)

theorem next {l : Label} (hinv : Inv s) (h : Ordered s) (hok : OneWay s l)
    (hstep : next s l = some s') : Ordered s' := by
  cases l with
  | call i kind =>
    obtain ⟨hout, rfl⟩ := enabledIf_eq_some hstep
    exact h.call hok hout
  | step i => exact h.callStep hstep
  | recvChannel i => exact h.recvChannel hstep
  | recvStream i => exact h.recvStream hstep
  | callbackReturns i ok => exact h.callbackReturns hstep
  | recvUdpPacket result => exact h.recvUdpPacket hinv hstep
  | reader => exact h.readerStep hinv hstep
  | readerReturns ok =>
    simp only [PacketConns.next, readerReturns] at hstep
    have horder := h.order
    split at hstep
    · next k hreader =>
      cases hstep
      rw [hreader] at horder
      -- the packet was handed over before the function was called
      refine h.moveReader _ (by rw [hreader]; nofun) ?_ ?_ ?_ ?_ s.late
      · cases ok <;> exact horder
      · cases ok <;> nofun
      · intro j buf _
        cases ok <;> nofun
      · cases ok <;> nofun
    · cases hstep
  | readerSends => exact h.readerSends hinv hstep
  | readerStops => exact h.readerStops hinv hstep
  | datagram buf =>
    simp only [PacketConns.next, datagram] at hstep
    split at hstep
    · split at hstep
      · cases hstep
        exact { h with }
      · cases hstep
        exact h
      · cases hstep
    · cases hstep
  | closeChannel =>
    simp only [PacketConns.next, closeChannel] at hstep
    split at hstep
    · split at hstep
      · cases hstep
        exact { h with }
      · cases hstep
    · cases hstep
  | close j =>
    obtain ⟨-, rfl⟩ := enabledIf_eq_some hstep
    exact { h with }
  | closeStep j =>
    -- `Close` changes nothing that the order of the packets is about
    simp only [PacketConns.next, closeStep] at hstep
    repeat' split at hstep
    all_goals cases hstep
    all_goals exact { h with }

end Ordered

/-- **In the order of the stream**: where one `Consume` is the only call, or all calls are `Read`s,
    the packets are handed out in the order in which the stream brought them. -/
theorem stream_packets_in_order {registered : Bool} {s : State}
    (hs : ((packetRuns registered).restrict OneWay).Reachable s) :
    s.handed.map Prod.snd ++ s.streamCh.queue ++ s.reader.hand ++ s.dropped = s.taken := by
  have hordered : Ordered s := by
    refine System.invariant_with ((packetRuns registered).restrict OneWay)
      (fun s hs => Inv.reachable hs.of_restrict) ?_ ?_ hs
    · intro s hs
      have hs : s = newPacketConn registered := hs
      rw [hs]
      exact Ordered.new registered
    · intro s l s' hinv h hstep
      exact h.next hinv hstep.1 hstep.2
  exact hordered.order

/-- Two `Read`s, the second with a buffer that is too small for the packet. -/
def twoReads : List Label :=
  [.call 0 (.read 8), .step 0, .step 0, .step 0, .recvUdpPacket (some [1, 2]), .reader, .readerSends,
   .recvUdpPacket (some [3, 4]), .reader, .recvStream 0, .readerSends, .step 0,
   .call 1 (.read 1), .step 1, .step 1, .step 1, .recvStream 1, .step 1]

/-- A `Consume` whose callback gets two packets from the goroutine; a third one is under way. -/
def oneConsume : List Label :=
  [.call 0 .consume, .step 0, .step 0, .step 0, .step 0, .recvUdpPacket (some [5]), .reader,
   .reader, .readerReturns true, .recvUdpPacket (some [6]), .reader, .reader, .readerReturns true,
   .recvUdpPacket (some [7])]

theorem twoReads_in_order :
    (∃ s, ((packetRuns false).restrict OneWay).Reachable s ∧
      s.calls 0 = .returned (.data [1, 2]) ∧ s.calls 1 = .returned (.data [3]) ∧
      s.handed.map Prod.snd ++ s.streamCh.queue ++ s.reader.hand ++ s.dropped = s.taken) ∧
    ∃ s, ((packetRuns true).restrict OneWay).Reachable s ∧ s.handed = [(0, [5]), (0, [6])] ∧
      s.handed.map Prod.snd ++ s.streamCh.queue ++ s.reader.hand ++ s.dropped = s.taken := by
  obtain ⟨s, hrun, hfirst, hsecond⟩ : ∃ s,
      runLabels (fun s l => if OneWay s l then next s l else none) (newPacketConn false) twoReads =
        some s ∧ s.calls 0 = .returned (.data [1, 2]) ∧ s.calls 1 = .returned (.data [3]) :=
    exists_of_runLabels (by decide +kernel)
  obtain ⟨t, hconsume, hhanded⟩ : ∃ t,
      runLabels (fun s l => if OneWay s l then next s l else none) (newPacketConn true) oneConsume =
        some t ∧ t.handed = [(0, [5]), (0, [6])] := exists_of_runLabels (by decide +kernel)
  have hs := System.Reachable.of_runLabels_restrict hrun
  have ht := System.Reachable.of_runLabels_restrict hconsume
  exact ⟨⟨s, hs, hfirst, hsecond, stream_packets_in_order hs⟩,
    ⟨t, ht, hhanded, stream_packets_in_order ht⟩⟩

end PacketConns
