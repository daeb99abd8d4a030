import Tssh.Session.Markers

/-! # Markers That Arrive

    While a session waits for a discard marker, all its input is discarded.  This can end
    without another reconnect only if the marker is still coming: the server has yet to send
    it or it is under way to the client that is attached, or the client object of the session
    holds it, or it is in the input of the session.

    The two ends lose a marker in these ways, which `KnownToClient` excludes:

    * the server marks a session for a client other than the one that is attached;
    * a session that was marked while it was detached is attached to an object that came
      after the marker was delivered;
    * the goroutines that send the markers overtake each other, and the client overwrites the
      newer marker with the older one;
    * two objects of a client have the same id, and the client's map holds only one of them.

    In all other runs in which no bus message is lost and no session ends, the marker of every
    attached session is coming: `Delivery` is the invariant that carries this.
-/

open Go LTS Pending

namespace Markers

variable {s s' : State} {m : Marker}

/-! ## Where the marker of a session is -/

/-- The object holds the marker, or the whole marker is in the input of the session. -/
def Near (c : Session) (o : Object) (m : Marker) : Prop :=
  o.discardMarker = some m ∨ markerCells m <:+: c.way o

/-- The marker is still to be sent or under way to client `k`, or near session `x`. -/
def State.Coming (s : State) (x k : Nat) (m : Marker) : Prop :=
  m ∈ s.pending k ∨ Near (s.sessions x) (s.objects (s.sessions x).object) m

instance (c : Session) (o : Object) (m : Marker) : Decidable (Near c o m) :=
  inferInstanceAs (Decidable (_ ∨ _))

instance (s : State) (x k : Nat) (m : Marker) : Decidable (s.Coming x k m) :=
  inferInstanceAs (Decidable (_ ∨ _))

theorem Near.of_eq {c c' : Session} {o o' : Object} (h : Near c o m)
    (hmarker : o'.discardMarker = o.discardMarker) (hway : c'.way o' = c.way o) :
    Near c' o' m := by
  rw [Near, hmarker, hway]
  exact h

variable {c : Session} {i j k k' x : Nat} {o : Object}

/-- An object changes neither its marker nor its stream. -/
theorem Near.setObject (h : Near c (s.objects i) m)
    (hmarker : o.discardMarker = (s.objects j).discardMarker)
    (hstream : o.stream = (s.objects j).stream) : Near c ((s.setObject j o).objects i) m := by
  by_cases hij : i = j
  · rw [hij] at h ⊢
    rw [setObject_self]
    exact h.of_eq hmarker (by rw [Session.way, Session.way, hstream])
  · rw [setObject_ne hij]
    exact h

/-- The client sends input: a marker that its object holds goes into the stream. -/
theorem Near.input (h : Near c o m) (buf : Bytes) :
    Near c { o with discardMarker := none
                    stream := o.stream ++ ((match o.discardMarker with
                      | some m => markerCells m
                      | none => []) ++ userCells buf) } m := by
  right
  rcases h with hmarker | hway
  · rw [hmarker]
    refine ⟨c.input.discardedBuffer ++ (c.reader.buf ++ o.stream), userCells buf, ?_⟩
    simp [Session.way, List.append_assoc]
  · obtain ⟨before, after, heq⟩ := hway
    refine ⟨before, after ++ ((match o.discardMarker with
      | some m => markerCells m
      | none => []) ++ userCells buf), ?_⟩
    rw [← List.append_assoc, heq]
    simp [Session.way, List.append_assoc]

/-! ## The invariant -/

/-- The markers of a client arrive in the order in which they were made; a session waits for
    the latest marker there is, and it is coming. -/
structure Delivery (s : State) : Prop where
  noExit : ∀ e ∈ s.bus, ∃ m, e.2 = .discard m
  bounded : ∀ k, ∀ m ∈ s.pending k, m.no < s.count
  ordered : ∀ k, (s.pending k).Pairwise fun a b => a.no < b.no
  held : ∀ j m, (s.objects j).discardMarker = some m →
    m.no < s.count ∧ ∀ m' ∈ s.pending (s.objects j).client, m.no < m'.no
  registered : ∀ j, j < s.objectCount → s.inMap j
  listed : ∀ x, x < s.sessionCount → x ∈ s.sessionMap
  latest : ∀ x m, (s.sessions x).input.discardMarker = some m →
    x < s.sessionCount ∧ m.no + 1 = s.count
  coming : ∀ x k m, (s.sessions x).server = some k →
    (s.sessions x).input.discardMarker = some m → s.Coming x k m

theorem start_delivery : Delivery start where
  noExit := fun _ h => absurd h List.not_mem_nil
  bounded := fun _ _ h => absurd h List.not_mem_nil
  ordered := fun _ => List.Pairwise.nil
  held := fun _ m h => absurd h (Option.some_ne_none m).symm
  registered := fun j h => absurd h (Nat.not_lt_zero j)
  listed := fun x h => absurd h (Nat.not_lt_zero x)
  latest := fun _ m h => absurd h (Option.some_ne_none m).symm
  coming := fun _ k _ h => absurd h (Option.some_ne_none k).symm

/-- A step that touches neither the messages nor the maps. -/
theorem Delivery.frame (h : Delivery s) (hbus : s'.bus = s.bus) (houtbox : s'.outbox = s.outbox)
    (hcount : s'.count = s.count) (hclientMap : s'.clientMap = s.clientMap)
    (hobjectCount : s'.objectCount = s.objectCount)
    (hsessionCount : s'.sessionCount = s.sessionCount) (hsessionMap : s'.sessionMap = s.sessionMap)
    (hobjects : ∀ j, (s'.objects j).client = (s.objects j).client ∧
      (s'.objects j).id = (s.objects j).id ∧
      ((s'.objects j).discardMarker = none ∨
        (s'.objects j).discardMarker = (s.objects j).discardMarker))
    (hlatest : ∀ x m, (s'.sessions x).input.discardMarker = some m →
      (s.sessions x).input.discardMarker = some m)
    (hcoming : ∀ x k m, (s'.sessions x).server = some k →
      (s'.sessions x).input.discardMarker = some m →
      m ∈ s.pending k ∨ Near (s'.sessions x) (s'.objects (s'.sessions x).object) m) :
    Delivery s' := by
  have hpending : ∀ k, s'.pending k = s.pending k := by
    intro k
    rw [State.pending, State.pending, hbus, houtbox]
  constructor
  · rw [hbus]
    exact h.noExit
  · intro k
    rw [hpending, hcount]
    exact h.bounded k
  · intro k
    rw [hpending]
    exact h.ordered k
  · intro j m hm
    obtain ⟨hclient, -, hmarker⟩ := hobjects j
    rcases hmarker with hnone | hsame
    · rw [hnone] at hm
      cases hm
    · rw [hcount, hclient, hpending]
      exact h.held j m (hsame ▸ hm)
  · intro j hj
    obtain ⟨hclient, hid, -⟩ := hobjects j
    rw [State.inMap, hclient, hid, hclientMap]
    exact h.registered j (hobjectCount ▸ hj)
  · intro x hx
    rw [hsessionMap]
    exact h.listed x (hsessionCount ▸ hx)
  · intro x m hm
    rw [hsessionCount, hcount]
    exact h.latest x m (hlatest x m hm)
  · intro x k m hk hm
    rw [State.Coming, hpending]
    exact hcoming x k m hk hm

/-- One object changes, and what was near stays near. -/
theorem Delivery.setObject (h : Delivery s) (hclient : o.client = (s.objects j).client)
    (hid : o.id = (s.objects j).id)
    (hmarker : o.discardMarker = none ∨ o.discardMarker = (s.objects j).discardMarker)
    (hnear : ∀ c m, Near c (s.objects j) m → Near c o m) : Delivery (s.setObject j o) := by
  refine h.frame rfl rfl rfl rfl rfl rfl rfl ?_ (fun _ _ hm => hm) ?_
  · intro i
    by_cases hij : i = j
    · rw [hij, setObject_self]
      exact ⟨hclient, hid, hmarker⟩
    · rw [setObject_ne hij]
      exact ⟨rfl, rfl, .inr rfl⟩
  · intro x k m hk hm
    rcases h.coming x k m hk hm with hpending | hx
    · exact .inl hpending
    · right
      by_cases hij : (s.sessions x).object = j
      · rw [hij] at hx
        simp only [setObject_sessions, hij, setObject_self]
        exact hnear _ m hx
      · simp only [setObject_sessions, setObject_ne hij]
        exact hx

/-- One session changes, and waits for the same marker or for none. -/
theorem Delivery.setSession (h : Delivery s) (hlatest : ∀ m, c.input.discardMarker = some m →
      (s.sessions x).input.discardMarker = some m)
    (hcoming : ∀ k m, c.server = some k → c.input.discardMarker = some m →
      m ∈ s.pending k ∨ Near c (s.objects c.object) m) : Delivery (s.setSession x c) := by
  refine h.frame rfl rfl rfl rfl rfl rfl rfl (fun _ => ⟨rfl, rfl, .inr rfl⟩) ?_ ?_
  · intro y m hm
    by_cases hy : y = x
    · rw [hy, setSession_self] at hm
      rw [hy]
      exact hlatest m hm
    · rw [setSession_ne hy] at hm
      exact hm
  · intro y k m hk hm
    by_cases hy : y = x
    · rw [hy, setSession_self] at hk hm ⊢
      exact hcoming k m hk hm
    · rw [setSession_ne hy] at hk hm ⊢
      exact h.coming y k m hk hm

/-- The same for a session that keeps its server, its object and the input on its way. -/
theorem Delivery.setSession_same (h : Delivery s) (hserver : c.server = (s.sessions x).server)
    (hobject : c.object = (s.sessions x).object)
    (hmarker : c.input.discardMarker = (s.sessions x).input.discardMarker)
    (hway : c.server ≠ none → ∀ o, c.way o = (s.sessions x).way o) :
    Delivery (s.setSession x c) := by
  apply h.setSession
  · intro m hm
    rw [← hmarker]
    exact hm
  · intro k m hk hm
    rw [hobject]
    rcases h.coming x k m (hserver ▸ hk) (hmarker ▸ hm) with hpending | hnear
    · exact .inl hpending
    · refine .inr (hnear.of_eq rfl (hway ?_ _))
      rw [hk]
      exact Option.some_ne_none k

/-! ## Messages -/

/-- A goroutine sends the first marker that is left for its client. -/
theorem pending_send (hi : s.outbox[i]? = some (k, m)) (hfirst : ∀ e ∈ s.outbox.take i, e.1 ≠ k)
    (k' : Nat) :
    State.pending { s with outbox := s.outbox.eraseIdx i
                           bus := s.bus ++ [(k, .discard m)] } k' = s.pending k' := by
  obtain ⟨hlt, hget⟩ := List.getElem?_eq_some_iff.mp hi
  have hsplit : s.outbox = s.outbox.take i ++ (k, m) :: s.outbox.drop (i + 1) := by
    rw [← hget, List.getElem_cons_drop, List.take_append_drop]
  simp only [State.pending, List.eraseIdx_eq_take_drop_succ]
  nth_rewrite 3 [hsplit]
  by_cases hk : k = k'
  · have hnone : (s.outbox.take i).filter (·.1 == k') = [] := by
      rw [List.filter_eq_nil_iff]
      intro e he heq
      exact hfirst e he ((beq_iff_eq.mp heq).trans hk.symm)
    simp [hk, hnone, Event.marker]
  · simp [hk]

/-- A client takes the first message for it off the bus. -/
theorem pending_recv {e : Event} (hfind : s.bus.find? (·.1 == k) = some (k', e)) :
    s.pending k = e.marker.toList ++ State.pending { s with bus := s.bus.eraseP (·.1 == k) } k ∧
      ∀ i, i ≠ k → State.pending { s with bus := s.bus.eraseP (·.1 == k) } i = s.pending i := by
  obtain ⟨as, bs, hbus, herase, hp, hno⟩ := split_of_find hfind
  have hk : k' = k := beq_iff_eq.mp hp
  simp only [State.pending, herase]
  rw [hbus]
  constructor
  · have hnone : as.filter (·.1 == k) = [] := by
      rw [List.filter_eq_nil_iff]
      intro b hb
      simp [hno b hb]
    cases hm : e.marker with
    | none => simp [hnone, hk, hm]
    | some m => simp [hnone, hk, hm]
  · intro i hi
    simp [hk, Ne.symm hi]

/-- Storing a marker leaves client and id of the objects alone. -/
theorem handle_discard_client (k : Nat) (m : Marker) (j : Nat) :
    ((s.handle k (.discard m)).objects j).client = (s.objects j).client ∧
      ((s.handle k (.discard m)).objects j).id = (s.objects j).id := by
  simp only [State.handle]
  split
  · exact ⟨rfl, rfl⟩
  · exact ⟨rfl, rfl⟩

/-- The server makes a marker. -/
theorem pending_mark (k : Nat) (m : Marker) (sessions : Nat → Session) (index : UInt32)
    (count k' : Nat) :
    State.pending { s with index := index, count := count, sessions := sessions
                           outbox := s.outbox ++ [(k, m)] } k' =
      s.pending k' ++ if k = k' then [m] else [] := by
  by_cases hk : k = k'
  · simp [State.pending, hk]
  · simp [State.pending, hk]

theorem eq_of_mem_ite {p : Prop} [Decidable p] {n : Marker}
    (h : n ∈ if p then [m] else []) : n = m := by
  split at h
  · exact List.mem_singleton.mp h
  · cases h

theorem mem_pending_mark {p : Prop} [Decidable p] {n : Marker}
    (h : n ∈ s.pending k ++ if p then [m] else []) : n ∈ s.pending k ∨ n = m := by
  rcases List.mem_append.mp h with hold | hnew
  · exact .inl hold
  · exact .inr (eq_of_mem_ite hnew)

/-- The marker goes out in the order in which it was made. -/
theorem Delivery.send (h : Delivery s) (hi : s.outbox[i]? = some (k, m))
    (hfirst : ∀ e ∈ s.outbox.take i, e.1 ≠ k) :
    Delivery { s with outbox := s.outbox.eraseIdx i, bus := s.bus ++ [(k, .discard m)] } := by
  have hpending := pending_send hi hfirst
  refine ⟨?_, ?_, ?_, ?_, h.registered, h.listed, h.latest, ?_⟩
  · intro e he
    rcases List.mem_append.mp he with he | he
    · exact h.noExit e he
    · rw [List.mem_singleton.mp he]
      exact ⟨m, rfl⟩
  · intro k'
    rw [hpending]
    exact h.bounded k'
  · intro k'
    rw [hpending]
    exact h.ordered k'
  · intro j m' hm'
    rw [hpending]
    exact h.held j m' hm'
  · intro x k' m' hk hm'
    rw [State.Coming, hpending]
    exact h.coming x k' m' hk hm'

theorem mem_pending_of_recv {e : Event} {m' : Marker}
    (hfind : s.bus.find? (·.1 == k) = some (k', e))
    (hm' : m' ∈ State.pending { s with bus := s.bus.eraseP (·.1 == k) } i) : m' ∈ s.pending i := by
  obtain ⟨hk, hother⟩ := pending_recv hfind
  by_cases hi : i = k
  · rw [hi] at hm' ⊢
    rw [hk]
    exact List.mem_append_right _ hm'
  · rw [← hother i hi]
    exact hm'

section

variable (h : Delivery s)
include h

/-- A client stores a marker in its objects.  The one that an object loses is older, so that
    no session waits for it any more. -/
theorem Delivery.recv_coming (hw : Wiring s) {m' : Marker}
    (hfind : s.bus.find? (·.1 == k) = some (i, .discard m))
    (hserver : (s.sessions x).server = some k')
    (hmarker : (s.sessions x).input.discardMarker = some m') :
    State.Coming { s.handle k (.discard m) with bus := s.bus.eraseP (·.1 == k) } x k' m' := by
  obtain ⟨hk, hother⟩ := pending_recv hfind
  have hcons : s.pending k = m :: State.pending { s with bus := s.bus.eraseP (·.1 == k) } k := hk
  have hmem : m ∈ s.pending k := hcons ▸ List.mem_cons_self
  obtain ⟨hx, hclient⟩ := hw.attached x k' hserver
  by_cases hk' : k' = k
  · have hstored : (s.objects (s.sessions x).object).client = k ∧
        s.inMap (s.sessions x).object :=
      ⟨hclient.trans hk', h.registered _ (hw.object_lt hx)⟩
    -- the marker that arrives is this one, or an older one
    rcases h.coming x k' m' hserver hmarker with hpending | hold | hway
    · rw [hk', hcons] at hpending
      rcases List.mem_cons.mp hpending with heq | hlater
      · refine .inr (.inl ?_)
        simp only [State.handle, if_pos hstored, heq]
      · exact .inl (hk' ▸ hlater)
    · -- the session waits for the latest marker, and a later one has arrived
      have hlt := (h.held _ m' hold).2 m (hstored.1.symm ▸ hmem)
      have hbound := h.bounded k m hmem
      have hlatest := (h.latest x m' hmarker).2
      omega
    · refine .inr (.inr ?_)
      simp only [State.handle, if_pos hstored]
      exact hway
  · have hkept : ¬ ((s.objects (s.sessions x).object).client = k ∧
        s.inMap (s.sessions x).object) := fun hc => hk' (hclient.symm.trans hc.1)
    rcases h.coming x k' m' hserver hmarker with hpending | hnear
    · exact .inl (hother k' hk' ▸ hpending)
    · refine .inr ?_
      simp only [State.handle, if_neg hkept]
      exact hnear

theorem Delivery.recv (hw : Wiring s) (hfind : s.bus.find? (·.1 == k) = some (k', .discard m)) :
    Delivery { s.handle k (.discard m) with bus := s.bus.eraseP (·.1 == k) } := by
  obtain ⟨hk, hother⟩ := pending_recv hfind
  have hcons : s.pending k = m :: State.pending { s with bus := s.bus.eraseP (·.1 == k) } k := hk
  have hafter := List.pairwise_cons.mp (hcons ▸ h.ordered k)
  refine ⟨?_, ?_, ?_, ?_, ?_, h.listed, h.latest, ?_⟩
  · intro e he
    exact h.noExit e (List.mem_of_mem_eraseP he)
  · intro i m' hm'
    exact h.bounded i m' (mem_pending_of_recv hfind hm')
  · intro i
    by_cases hi : i = k
    · rw [hi]
      exact hafter.2
    · show (State.pending { s with bus := s.bus.eraseP (·.1 == k) } i).Pairwise _
      rw [hother i hi]
      exact h.ordered i
  · intro j m' hm'
    simp only [State.handle] at hm' ⊢
    by_cases hj : (s.objects j).client = k ∧ s.inMap j
    · rw [if_pos hj, Option.some.injEq] at hm'
      rw [if_pos hj, ← hm', hj.1]
      exact ⟨h.bounded k m (hcons ▸ List.mem_cons_self), hafter.1⟩
    · rw [if_neg hj] at hm' ⊢
      obtain ⟨hlt, hlater⟩ := h.held j m' hm'
      exact ⟨hlt, fun n hn => hlater n (mem_pending_of_recv hfind hn)⟩
  · intro j hj
    obtain ⟨hclient, hid⟩ := handle_discard_client (s := s) k m j
    rw [State.inMap, hclient, hid]
    exact h.registered j hj
  · intro x k' m' hserver hmarker
    exact h.recv_coming hw hfind hserver hmarker

/-- The server marks the sessions of the client that reconnects. -/
theorem Delivery.reconnect (hw : Wiring s) (k : Nat)
    (hown : ∀ x ∈ s.sessionMap, (s.sessions x).server = none ∨ (s.sessions x).server = some k) :
    Delivery (s.enablePendingInputDiscard k) := by
  unfold State.enablePendingInputDiscard
  split
  · exact h
  · generalize hm : Marker.mk s.count (getNextDiscardMarkerIndex s.index) = m
    have hno : m.no = s.count := by rw [← hm]
    have hpending := pending_mark (s := s) k m (fun x =>
        if x ∈ s.sessionMap then
          { s.sessions x with input := { (s.sessions x).input with discardMarker := some m } }
        else s.sessions x) (getNextDiscardMarkerIndex s.index) (s.count + 1)
    simp only [hm]
    refine ⟨h.noExit, ?_, ?_, ?_, h.registered, h.listed, ?_, ?_⟩
    · intro k' n hn
      rw [hpending] at hn
      rcases mem_pending_mark hn with hn | hn
      · exact Nat.lt_succ_of_lt (h.bounded k' n hn)
      · rw [hn, hno]
        exact Nat.lt_succ_self _
    · intro k'
      rw [hpending, List.pairwise_append]
      refine ⟨h.ordered k', by split <;> simp, ?_⟩
      intro a ha b hb
      rw [eq_of_mem_ite hb, hno]
      exact h.bounded k' a ha
    · intro j n hn
      obtain ⟨hlt, hlater⟩ := h.held j n hn
      refine ⟨Nat.lt_succ_of_lt hlt, ?_⟩
      intro n' hn'
      rw [hpending] at hn'
      rcases mem_pending_mark hn' with hn' | hn'
      · exact hlater n' hn'
      · rw [hn', hno]
        exact hlt
    · intro x n hn
      by_cases hx : x ∈ s.sessionMap
      · simp only [if_pos hx, Option.some.injEq] at hn
        exact ⟨hw.map x hx, by rw [← hn, hno]⟩
      · -- a session outside the map has not been created
        simp only [if_neg hx] at hn
        exact absurd (h.listed x (h.latest x n hn).1) hx
    · intro x k' n hk hn
      by_cases hx : x ∈ s.sessionMap
      · simp only [if_pos hx, Option.some.injEq] at hk hn
        have hkk : k = k' := by
          rcases hown x hx with hnone | hsome
          · rw [hnone] at hk
            cases hk
          · rw [hsome] at hk
            exact Option.some.inj hk
        left
        rw [hpending, if_pos hkk, ← hn]
        exact List.mem_append_right _ List.mem_cons_self
      · simp only [if_neg hx] at hn
        exact absurd (h.listed x (h.latest x n hn).1) hx

/-! ## Maps of the two ends -/

/-- A client opens a stream under an id that it does not use. -/
theorem Delivery.newSession (hw : Wiring s) {k id : Nat} (hfree : s.clientMap k id = none) :
    Delivery { s.setObject s.objectCount ⟨k, id, .opened, false, none, []⟩ with
      objectCount := s.objectCount + 1
      clientMap := Function.update s.clientMap k
        (Function.update (s.clientMap k) id (some s.objectCount)) } := by
  refine ⟨h.noExit, h.bounded, h.ordered, ?_, ?_, h.listed, h.latest, ?_⟩
  · intro j m hm
    by_cases hj : j = s.objectCount
    · simp only [hj, setObject_self] at hm
      cases hm
    · simp only [setObject_ne hj] at hm ⊢
      exact h.held j m hm
  · intro j hlt
    by_cases hj : j = s.objectCount
    · simp [State.inMap, hj]
    · have hmap := h.registered j (Nat.lt_of_le_of_ne (Nat.le_of_lt_succ hlt) hj)
      simp only [State.inMap, setObject_ne hj] at hmap ⊢
      by_cases hk : (s.objects j).client = k
      · rw [hk] at hmap ⊢
        have hid : (s.objects j).id ≠ id := by
          intro heq
          rw [heq, hfree] at hmap
          cases hmap
        simp only [Function.update_self, Function.update_of_ne hid, hmap]
      · simp only [Function.update_of_ne hk, hmap]
  · intro x k' m hk hm
    have hx := (hw.attached x k' hk).1
    -- the new object serves nobody
    have hne : (s.sessions x).object ≠ s.objectCount := Nat.ne_of_lt (hw.object_lt hx)
    rcases h.coming x k' m hk hm with hpending | hnear
    · exact .inl hpending
    · right
      simp only [setObject_sessions, setObject_ne hne]
      exact hnear

/-- A client moves an object to an id that it does not use. -/
theorem Delivery.moveObject {j id : Nat} (hlt : j < s.objectCount)
    (hfree : s.clientMap (s.objects j).client id = none) : Delivery (s.moveObject j id) := by
  have hold := h.registered j hlt
  have hid : id ≠ (s.objects j).id := by
    intro heq
    rw [State.inMap, ← heq, hfree] at hold
    cases hold
  refine ⟨h.noExit, h.bounded, h.ordered, ?_, ?_, h.listed, h.latest, ?_⟩
  · intro i m hm
    by_cases hi : i = j
    · simp only [State.moveObject, hi, setObject_self] at hm ⊢
      exact h.held j m hm
    · simp only [State.moveObject, setObject_ne hi] at hm ⊢
      exact h.held i m hm
  · intro i hi
    by_cases hij : i = j
    · simp [State.inMap, State.moveObject, hij, hid]
    · have hmap := h.registered i hi
      simp only [State.inMap, State.moveObject, setObject_ne hij] at hmap ⊢
      by_cases hk : (s.objects i).client = (s.objects j).client
      · rw [hk] at hmap ⊢
        have hne : (s.objects i).id ≠ id := by
          intro heq
          rw [heq, hfree] at hmap
          cases hmap
        have hne' : (s.objects i).id ≠ (s.objects j).id := by
          intro heq
          rw [heq] at hmap
          exact hij (Option.some.inj (hmap.symm.trans hold))
        simp only [Function.update_self, Function.update_of_ne hne, Function.update_of_ne hne',
          hmap]
      · simp only [Function.update_of_ne hk, hmap]
  · intro x k m hk hm
    rcases h.coming x k m hk hm with hpending | hnear
    · exact .inl hpending
    · exact .inr (hnear.setObject rfl rfl)

/-- The server inserts a new session, which waits for nothing. -/
theorem Delivery.create (j : Nat) (hmarker : c.input.discardMarker = none) :
    Delivery { (s.setObject j { s.objects j with
        request := .serves s.sessionCount }).setSession s.sessionCount c with
      sessionCount := s.sessionCount + 1
      sessionMap := s.sessionMap ++ [s.sessionCount] } := by
  have hset : Delivery ((s.setObject j { s.objects j with
      request := .serves s.sessionCount }).setSession s.sessionCount c) := by
    have hobject : Delivery (s.setObject j { s.objects j with
        request := .serves s.sessionCount }) :=
      h.setObject rfl rfl (.inr rfl) (fun _ _ hnear => hnear.of_eq rfl rfl)
    apply hobject.setSession
    · intro m hm
      rw [hmarker] at hm
      cases hm
    · intro k m _ hm
      rw [hmarker] at hm
      cases hm
  refine ⟨hset.noExit, hset.bounded, hset.ordered, hset.held, hset.registered, ?_, ?_, hset.coming⟩
  · intro x hx
    rcases Nat.lt_succ_iff_lt_or_eq.mp hx with hlt | heq
    · exact List.mem_append_left _ (h.listed x hlt)
    · exact List.mem_append_right _ (List.mem_singleton.mpr heq)
  · intro x m hm
    obtain ⟨hlt, hno⟩ := hset.latest x m hm
    exact ⟨Nat.lt_succ_of_lt hlt, hno⟩

/-! ## Input -/

/-- The reader takes input from the stream of its object. -/
theorem Delivery.read (hw : Wiring s) (hx : x < s.sessionCount) (hr : (s.sessions x).reader = .idle)
    (n : Nat) : let c := s.sessions x
    let o := s.objects c.object
    Delivery ((s.setObject c.object { o with stream := o.stream.drop n }).setSession x
      { c with reader := .got (o.stream.take n) }) := by
  intro c o
  refine h.frame rfl rfl rfl rfl rfl rfl rfl ?_ ?_ ?_
  · intro j
    by_cases hj : j = c.object
    · rw [hj, setSession_objects, setObject_self]
      exact ⟨rfl, rfl, .inr rfl⟩
    · rw [setSession_objects, setObject_ne hj]
      exact ⟨rfl, rfl, .inr rfl⟩
  · intro y m hm
    by_cases hy : y = x
    · rw [hy, setSession_self] at hm
      rw [hy]
      exact hm
    · rw [setSession_ne hy] at hm
      exact hm
  · intro y k m hk hm
    by_cases hy : y = x
    · rw [hy, setSession_self] at hk hm ⊢
      rcases h.coming x k m hk hm with hpending | hnear
      · exact .inl hpending
      · right
        rw [setSession_objects, setObject_self]
        refine hnear.of_eq rfl ?_
        simp [Session.way, hr, c, o]
    · rw [setSession_ne hy] at hk hm ⊢
      rcases h.coming y k m hk hm with hpending | hnear
      · exact .inl hpending
      · -- another session has another object
        right
        have hne : (s.sessions y).object ≠ c.object := by
          intro heq
          have hserves := hw.serves y (hw.attached y k hk).1
          rw [heq, hw.serves x hx] at hserves
          exact hy (Request.serves.inj hserves).symm
        rw [setSession_objects, setObject_sessions, setObject_ne hne]
        exact hnear

end

/-- A round of `forwardInput` that does not find the marker keeps all the input. -/
theorem forwardInput_keeps {c : Input (Option Nat)} {buf : Cells} {accepts : Nat}
    (h : (forwardInput c buf accepts).1.discardMarker = some m) :
    c.discardMarker = some m ∧
      (forwardInput c buf accepts).1.discardedBuffer = c.discardedBuffer ++ buf := by
  rcases forwardInput_cases c buf accepts with
    ⟨hnone, ok, heq⟩ | ⟨marker, -, ⟨-, heq⟩ | ⟨pos, -, ⟨n, heq⟩ | heq⟩⟩
  · rw [heq] at h
    rw [hnone] at h
    cases h
  · rw [heq] at h ⊢
    exact ⟨h, rfl⟩
  · rw [heq] at h ⊢
    exact ⟨h, rfl⟩
  · rw [heq] at h
    cases h

theorem Delivery.forward (h : Delivery s) {buf : Cells} (hr : (s.sessions x).reader = .loaded buf)
    (accepts : Nat) (r : Reader) (hbuf : r.buf = []) : let c := s.sessions x
    Delivery (s.setSession x
      { c with input := (forwardInput c.input buf accepts).1, reader := r }) := by
  intro c
  apply h.setSession
  · intro m hm
    exact (forwardInput_keeps hm).1
  · intro k m hk hm
    obtain ⟨hmarker, hbuffer⟩ := forwardInput_keeps hm
    rcases h.coming x k m hk hmarker with hpending | hnear
    · exact .inl hpending
    · refine .inr (hnear.of_eq rfl ?_)
      simp only [Session.way, hbuffer, hbuf, hr, Reader.buf_loaded, List.nil_append,
        List.append_assoc]
      rfl

/-! ## Every step -/

/-- No bus message is lost and no session ends. -/
def Label.lossless : Label → Bool
  | .sendFails _ | .close _ _ | .remove _ => false
  | _ => true

/-- The client that a session is or will be attached to gets to know its marker:

    * the goroutines of a client send their markers in the order in which they were made;
    * a client reconnects only while no session is attached to another one;
    * a session that waits for a marker is attached to an object of a client that has not been
      delivered the marker yet, or to one that was there when the marker was delivered;
    * a client uses an id for one object only. -/
def KnownToClient (s : State) : Label → Prop
  | .send i =>
    match s.outbox[i]? with
    | some (k, _) => ∀ e ∈ s.outbox.take i, e.1 ≠ k
    | none => True
  | .reconnect k =>
    ∀ x ∈ s.sessionMap, (s.sessions x).server = none ∨ (s.sessions x).server = some k
  | .attach j =>
    match (s.objects j).request with
    | .found x =>
      match (s.sessions x).input.discardMarker with
      | some m => m ∈ s.pending (s.objects j).client ∨ (s.objects j).discardMarker = some m
      | none => True
    | _ => True
  | .newSession k id => s.clientMap k id = none
  | .attachTo j id => s.clientMap (s.objects j).client id = none
  | _ => True

theorem knownToClient_send :
    KnownToClient s (.send i) ↔ ∀ e ∈ s.outbox[i]?, ∀ e' ∈ s.outbox.take i, e'.1 ≠ e.1 := by
  cases he : s.outbox[i]? <;> simp [KnownToClient, he]

/-- The session that a request has found. -/
def foundSession : Request → Option Nat
  | .found x => some x
  | _ => none

theorem knownToClient_attach :
    KnownToClient s (.attach j) ↔
      ∀ x ∈ foundSession (s.objects j).request, ∀ m ∈ (s.sessions x).input.discardMarker,
        m ∈ s.pending (s.objects j).client ∨ (s.objects j).discardMarker = some m := by
  cases hr : (s.objects j).request with
  | found x =>
    cases hm : (s.sessions x).input.discardMarker <;> simp [KnownToClient, foundSession, hr, hm]
  | _ => simp [KnownToClient, foundSession, hr]

instance (s : State) (l : Label) : Decidable (KnownToClient s l) :=
  match l with
  | .send _ => decidable_of_iff' _ knownToClient_send
  | .reconnect k => inferInstanceAs (Decidable (∀ x ∈ s.sessionMap,
      (s.sessions x).server = none ∨ (s.sessions x).server = some k))
  | .attach _ => decidable_of_iff' _ knownToClient_attach
  | .newSession k id => inferInstanceAs (Decidable (s.clientMap k id = none))
  | .attachTo j id => inferInstanceAs (Decidable (s.clientMap (s.objects j).client id = none))
  | .startSession _ | .activate _ | .closeServer _ | .setKeep _ _ | .create _ | .ack _ | .connect _
  | .lookup _ | .close _ _ | .remove _ | .sendFails _ | .recv _ | .input _ _ | .read _ _
  | .loadServer _ | .forward _ _ => instDecidableTrue

/-- **Step lemma**: every such step keeps the markers coming. -/
theorem Delivery.next {l : Label} (h : Delivery s) (hw : Wiring s) (hl : l.lossless = true)
    (hok : KnownToClient s l) (hn : next s l = some s') : Delivery s' := by
  -- an object that changes neither marker nor stream
  have hrequest : ∀ j (r : Request) (running : Bool),
      Delivery (s.setObject j { s.objects j with request := r, running := running }) := by
    intro j r running
    exact h.setObject rfl rfl (.inr rfl) (fun _ _ hnear => hnear.of_eq rfl rfl)
  cases l with
  | newSession k id =>
    obtain ⟨-, rfl⟩ := when_eq_some hn
    exact h.newSession hw hok
  | startSession j =>
    obtain ⟨-, rfl⟩ := when_eq_some hn
    exact hrequest j _ _
  | attachTo j id =>
    obtain ⟨⟨hlt, -⟩, rfl⟩ := when_eq_some hn
    exact h.moveObject hlt hok
  | activate k =>
    -- what is in the map is detached and waits for nothing; the rest stays as it is
    cases hn
    refine h.frame rfl rfl rfl rfl rfl rfl rfl (fun _ => ⟨rfl, rfl, .inr rfl⟩) ?_ ?_
    · intro x m hm
      simp only [State.activate] at hm
      split at hm
      · cases hm
      · exact hm
    · intro x k' m hk hm
      simp only [State.activate] at hk hm ⊢
      split at hk
      · cases hk
      · next hx =>
        rw [if_neg hx] at hm ⊢
        exact h.coming x k' m hk hm
  | closeServer k | setKeep k keep =>
    cases hn
    exact h.frame rfl rfl rfl rfl rfl rfl rfl (fun _ => ⟨rfl, rfl, .inr rfl⟩)
      (fun _ _ hm => hm) h.coming
  | reconnect k =>
    obtain ⟨-, rfl⟩ := when_eq_some hn
    exact h.reconnect hw k hok
  | create j =>
    obtain ⟨-, rfl⟩ := when_eq_some hn
    exact h.create j rfl
  | ack x =>
    obtain ⟨⟨-, hr⟩, rfl⟩ := when_eq_some hn
    refine (hrequest (s.sessions x).object _ true).setSession_same rfl rfl rfl ?_
    intro _ o
    simp [Session.way, hr, Reader.buf]
  | connect x =>
    obtain ⟨hr, rfl⟩ := when_eq_some hn
    refine h.setSession_same rfl rfl rfl ?_
    intro _ o
    simp [Session.way, hr]
  | lookup j =>
    obtain ⟨x, -, -, -, rfl⟩ := next_lookup hn
    exact hrequest j _ _
  | attach j =>
    simp only [KnownToClient] at hok
    obtain ⟨x, hreq, -, rfl⟩ := next_attach hn
    rw [hreq] at hok
    refine (hrequest j (.serves x) true).setSession (fun m hm => hm) ?_
    intro k m hk hm
    have hm' : (s.sessions x).input.discardMarker = some m := hm
    simp only [hm'] at hok
    -- the object may not hold the marker yet, but then the client will be told
    rcases hok with hpending | hmarker
    · left
      rw [← Option.some.inj hk]
      exact hpending
    · refine .inr (.inl ?_)
      rw [setObject_self]
      exact hmarker
  | close x told => cases hl
  | remove id => cases hl
  | send i =>
    simp only [KnownToClient] at hok
    obtain ⟨k, m, hi, rfl⟩ := next_send hn
    rw [hi] at hok
    exact h.send hi hok
  | sendFails i => cases hl
  | recv k =>
    obtain ⟨k', e, hfind, rfl⟩ := next_recv hn
    obtain ⟨m, hm⟩ := h.noExit _ (List.mem_of_find?_eq_some hfind)
    have he : e = .discard m := hm
    rw [he] at hfind ⊢
    exact h.recv hw hfind
  | input j buf =>
    obtain ⟨-, rfl⟩ := when_eq_some hn
    exact h.setObject rfl rfl (.inl rfl) (fun _ _ hnear => hnear.input buf)
  | read x n =>
    obtain ⟨⟨hx, hr, -⟩, rfl⟩ := when_eq_some hn
    exact h.read hw hx hr n
  | loadServer x =>
    -- only a detached session drops what was read
    obtain ⟨buf, hr, rfl⟩ := next_loadServer hn
    refine h.setSession_same rfl rfl rfl ?_
    intro hserver o
    have hserver' : (s.sessions x).server ≠ none := hserver
    simp [Session.way, hr, hserver']
  | forward x accepts =>
    obtain ⟨buf, hr, rfl⟩ := next_forward hn
    exact h.forward hr accepts _ (Reader.buf_after _)

end Markers
