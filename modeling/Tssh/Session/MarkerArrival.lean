import Tssh.Session.MarkerDelivery
import Mathlib.Logic.Relation

/-! # Discarding That Can End

    A marker that is coming (`Tssh.Session.MarkerDelivery`) is not yet one that is found.
    From every state in which an attached session waits for a marker, the steps below lead to
    one in which it does not, and no client has to reconnect for it:

    1. the reader of the session finishes what it is doing (`Waiting.to_idle`);
    2. the messages for the client are delivered (`Waiting.to_near`);
    3. the user types something, which takes the marker along (`Waiting.to_sent`);
    4. the reader takes it all and finds the marker (`Waiting.to_end`).

    A session whose reader has returned is left out: it forwards no input any more.
-/

open Go LTS Pending

namespace Markers

variable {s s' : State} {m : Marker} {x k : Nat}

/-! ## Sessions that are served -/

/-- Both ends of an attached session are connected once its program has started, and the
    `forwardInput` of its object runs. -/
structure Served (c : Session) (o : Object) : Prop where
  connected : c.reader ≠ .starting → c.reader ≠ .acked → c.connected = true
  running : c.reader ≠ .starting → o.running = true

def AllServed (s : State) : Prop :=
  ∀ x k, (s.sessions x).server = some k →
    Served (s.sessions x) (s.objects (s.sessions x).object)

theorem start_allServed : AllServed start :=
  fun _ k h => absurd h (Option.some_ne_none k).symm

/-- Steps that stop no `forwardInput` of an object. -/
theorem AllServed.frame_objects (h : AllServed s) (hsessions : s'.sessions = s.sessions)
    (hrunning : ∀ j, (s.objects j).running = true → (s'.objects j).running = true) :
    AllServed s' := by
  intro x k hk
  rw [hsessions] at hk ⊢
  obtain ⟨hconnected, hrun⟩ := h x k hk
  exact ⟨hconnected, fun hr => hrunning _ (hrun hr)⟩

theorem AllServed.setObject (h : AllServed s) {j : Nat} {o : Object}
    (hrunning : (s.objects j).running = true → o.running = true) :
    AllServed (s.setObject j o) := by
  refine h.frame_objects rfl ?_
  intro i hi
  by_cases hij : i = j
  · rw [hij, setObject_self]
    exact hrunning (hij ▸ hi)
  · rw [setObject_ne hij]
    exact hi

variable {c : Session} {l : Label} {buf : Cells}

theorem AllServed.setSession (h : AllServed s)
    (hc : ∀ k, c.server = some k → Served c (s.objects c.object)) :
    AllServed (s.setSession x c) := by
  intro y k hk
  by_cases hy : y = x
  · rw [hy, setSession_self] at hk ⊢
    exact hc k hk
  · rw [setSession_ne hy] at hk ⊢
    exact h y k hk

/-- A session whose program has started and that goes on reading. -/
theorem AllServed.setReader (h : AllServed s) (hserver : c.server = (s.sessions x).server)
    (hobject : c.object = (s.sessions x).object)
    (hconnected : c.connected = (s.sessions x).connected)
    (hstarting : (s.sessions x).reader ≠ .starting) (hacked : (s.sessions x).reader ≠ .acked) :
    AllServed (s.setSession x c) := by
  apply h.setSession
  intro k hk
  obtain ⟨hconn, hrun⟩ := h x k (hserver ▸ hk)
  constructor
  · intro _ _
    rw [hconnected]
    exact hconn hstarting hacked
  · intro _
    rw [hobject]
    exact hrun hstarting

/-- **Step lemma**: attached sessions stay served. -/
theorem AllServed.next (h : AllServed s) (hw : Wiring s) (hn : next s l = some s') :
    AllServed s' := by
  cases l with
  | newSession k id =>
    obtain ⟨-, rfl⟩ := when_eq_some hn
    refine h.setObject (j := s.objectCount) (o := ⟨k, id, .opened, false, none, []⟩) ?_
    intro hrun
    -- nothing runs for an object that is not there yet
    have hidle := hw.idle s.objectCount (fun x hx => absurd
      (hw.known s.objectCount (by rw [hx]; exact Request.noConfusion)) (Nat.lt_irrefl _))
    rw [hidle] at hrun
    cases hrun
  | startSession j | input j buf =>
    obtain ⟨-, rfl⟩ := when_eq_some hn
    exact h.setObject (fun hrun => hrun)
  | attachTo j id =>
    obtain ⟨-, rfl⟩ := when_eq_some hn
    exact h.setObject (j := j) (o := { s.objects j with id := id, request := .attach })
      (fun hrun => hrun)
  | activate k =>
    cases hn
    intro x k' hk
    simp only [State.activate] at hk ⊢
    split at hk
    · cases hk
    · next hx =>
      rw [if_neg hx]
      exact h x k' hk
  | closeServer k =>
    cases hn
    exact h
  | setKeep k keep =>
    cases hn
    exact h
  | reconnect k =>
    obtain ⟨-, rfl⟩ := when_eq_some hn
    unfold State.enablePendingInputDiscard
    split
    · exact h
    · intro x k' hk
      by_cases hx : x ∈ s.sessionMap
      · simp only [if_pos hx] at hk ⊢
        exact ⟨(h x k' hk).connected, (h x k' hk).running⟩
      · simp only [if_neg hx] at hk ⊢
        exact h x k' hk
  | create j =>
    obtain ⟨-, rfl⟩ := when_eq_some hn
    have hset : AllServed (s.setObject j { s.objects j with request := .serves s.sessionCount }) :=
      h.setObject (fun hrun => hrun)
    exact hset.setSession (x := s.sessionCount)
      (fun _ _ => ⟨fun hr => absurd rfl hr, fun hr => absurd rfl hr⟩)
  | ack x =>
    obtain ⟨-, rfl⟩ := when_eq_some hn
    have hset : AllServed (s.setObject (s.sessions x).object
        { s.objects (s.sessions x).object with running := true }) := h.setObject (fun _ => rfl)
    refine hset.setSession (fun k _ => ⟨fun _ hr => absurd rfl hr, fun _ => ?_⟩)
    simp only [setObject_self]
  | connect x =>
    obtain ⟨hr, rfl⟩ := when_eq_some hn
    refine h.setSession (fun k hk => ⟨fun _ _ => rfl, fun _ => (h x k hk).running ?_⟩)
    rw [hr]
    exact Reader.noConfusion
  | lookup j =>
    obtain ⟨x, -, -, -, rfl⟩ := next_lookup hn
    exact h.setObject (fun hrun => hrun)
  | attach j =>
    obtain ⟨x, hreq, -, rfl⟩ := next_attach hn
    have hset : AllServed (s.setObject j
        { s.objects j with request := .serves x, running := true }) := h.setObject (fun _ => rfl)
    refine hset.setSession (fun k _ => ⟨fun _ _ => rfl, fun _ => ?_⟩)
    simp only [setObject_self]
  | close x told =>
    obtain ⟨-, rfl⟩ := when_eq_some hn
    exact h.setSession (x := x) (c := { s.sessions x with closed := true })
      (fun k hk => ⟨(h x k hk).connected, (h x k hk).running⟩)
  | remove id =>
    cases hn
    exact h
  | send i =>
    obtain ⟨k, m, -, rfl⟩ := next_send hn
    exact h
  | sendFails i =>
    obtain ⟨-, rfl⟩ := when_eq_some hn
    exact h
  | recv k =>
    obtain ⟨k', e, hfind, rfl⟩ := next_recv hn
    cases e with
    | exit id => exact h
    | discard m =>
      refine h.frame_objects rfl ?_
      intro j hrun
      simp only [State.handle]
      split
      · exact hrun
      · exact hrun
  | read x n =>
    obtain ⟨⟨-, hr, -⟩, rfl⟩ := when_eq_some hn
    have hset : AllServed (s.setObject (s.sessions x).object
        { s.objects (s.sessions x).object with
          stream := (s.objects (s.sessions x).object).stream.drop n }) :=
      h.setObject (fun hrun => hrun)
    refine hset.setReader rfl rfl rfl ?_ ?_
    · rw [setObject_sessions, hr]
      exact Reader.noConfusion
    · rw [setObject_sessions, hr]
      exact Reader.noConfusion
  | loadServer x =>
    obtain ⟨buf, hr, rfl⟩ := next_loadServer hn
    exact h.setReader rfl rfl rfl (by rw [hr]; exact Reader.noConfusion)
      (by rw [hr]; exact Reader.noConfusion)
  | forward x accepts =>
    obtain ⟨buf, hr, rfl⟩ := next_forward hn
    exact h.setReader rfl rfl rfl (by rw [hr]; exact Reader.noConfusion)
      (by rw [hr]; exact Reader.noConfusion)

/-! ## Going on without a reconnect -/

/-- The steps by which markers and input get on. -/
def Label.goesOn : Label → Bool
  | .ack _ | .connect _ | .send _ | .recv _ | .input _ _ | .read _ _ | .loadServer _
  | .forward _ _ => true
  | _ => false

theorem Label.goesOn_lossless (h : l.goesOn = true) : l.lossless = true := by
  cases l
  all_goals first | rfl | cases h

/-- What happens without a client that reconnects and without a session that is detached. -/
def Continues : State → State → Prop :=
  Relation.ReflTransGen fun s s' => ∃ l, l.goesOn = true ∧ KnownToClient s l ∧ next s l = some s'

/-- Session `x` is attached to client `k` and waits for marker `m`. -/
structure Waiting (s : State) (x k : Nat) (m : Marker) : Prop where
  wiring : Wiring s
  delivery : Delivery s
  served : AllServed s
  server : (s.sessions x).server = some k
  marker : (s.sessions x).input.discardMarker = some m
  reads : (s.sessions x).reader ≠ .stopped

theorem Waiting.coming (h : Waiting s x k m) : s.Coming x k m :=
  h.delivery.coming x k m h.server h.marker

theorem Waiting.lt (h : Waiting s x k m) : x < s.sessionCount :=
  (h.wiring.attached x k h.server).1

/-- A step after which the session still waits. -/
theorem Waiting.step (h : Waiting s x k m) (hn : next s l = some s') (hgo : l.goesOn = true)
    (hok : KnownToClient s l) (hx : s'.sessions x = c) (hserver : c.server = (s.sessions x).server)
    (hmarker : c.input.discardMarker = (s.sessions x).input.discardMarker)
    (hreads : c.reader ≠ .stopped) : Continues s s' ∧ Waiting s' x k m := by
  have hdelivery := h.delivery.next h.wiring (Label.goesOn_lossless hgo) hok hn
  refine ⟨.single ⟨l, hgo, hok, hn⟩, h.wiring.next hn, hdelivery, h.served.next h.wiring hn,
    ?_, ?_, ?_⟩
  · rw [hx, hserver]
    exact h.server
  · rw [hx, hmarker]
    exact h.marker
  · rw [hx]
    exact hreads

theorem when_true {guard : Prop} [Decidable guard] (h : guard) : when guard s = some s := if_pos h

/-! ## The reader -/

/-- If it goes through and the marker is in the input, the session stops waiting. -/
theorem forwardInput_finds {c : Input (Option Nat)} {accepts : Nat} (hm : c.discardMarker = some m)
    (hin : markerCells m <:+: c.discardedBuffer ++ buf)
    (hok : (forwardInput c buf accepts).2.2 = true) :
    (forwardInput c buf accepts).1.discardMarker = none := by
  have hbytes : m.bytes <:+: (c.discardedBuffer ++ buf).map (·.byte) := by
    have hmap := hin.map (·.byte)
    rwa [markerCells, List.map_map, show (fun c : Cell (Option Nat) => c.byte) ∘
      (fun b => ⟨b, some m.no⟩) = id from rfl, List.map_id] at hmap
  have hfound := Pattern.indexOf_isSome hbytes
  rcases forwardInput_cases c buf accepts with
    ⟨hnone, -⟩ | ⟨marker, hmarker, ⟨hnot, -⟩ | ⟨pos, -, ⟨n, heq⟩ | heq⟩⟩
  · rw [hnone] at hm
    cases hm
  · rw [hm] at hmarker
    rw [← Option.some.inj hmarker] at hnot
    rw [hnot] at hfound
    cases hfound
  · rw [heq] at hok
    cases hok
  · rw [heq]

section

variable (h : Waiting s x k m)
include h

/-- The program starts, and both ends are connected. -/
theorem Waiting.starts (hr : (s.sessions x).reader = .starting) :
    ∃ s', Continues s s' ∧ Waiting s' x k m ∧ (s'.sessions x).reader = .acked := by
  let c := s.sessions x
  let s₁ := (s.setObject c.object { s.objects c.object with running := true }).setSession x
    { c with reader := .acked }
  have hn : Markers.next s (.ack x) = some s₁ := when_true ⟨h.lt, hr⟩
  have hx : s₁.sessions x = { c with reader := .acked } := setSession_self x _
  obtain ⟨hgo, h₁⟩ := h.step hn rfl trivial hx rfl rfl Reader.noConfusion
  exact ⟨s₁, hgo, h₁, by rw [hx]⟩

theorem Waiting.connects (hr : (s.sessions x).reader = .acked) :
    ∃ s', Continues s s' ∧ Waiting s' x k m ∧ (s'.sessions x).reader = .idle := by
  let c : Session := { s.sessions x with reader := .idle, connected := true }
  have hn : Markers.next s (.connect x) = some (s.setSession x c) := when_true hr
  have hx : (s.setSession x c).sessions x = c := setSession_self x c
  obtain ⟨hgo, h₁⟩ := h.step hn rfl trivial hx rfl rfl Reader.noConfusion
  exact ⟨_, hgo, h₁, by rw [hx]⟩

/-- The reader finds the session attached. -/
theorem Waiting.loads (hr : (s.sessions x).reader = .got buf) :
    ∃ s', Continues s s' ∧ Waiting s' x k m ∧ (s'.sessions x).reader = .loaded buf ∧
      (s'.sessions x).input = (s.sessions x).input := by
  let c : Session := { s.sessions x with reader := .loaded buf }
  have hn : Markers.next s (.loadServer x) = some (s.setSession x c) := by
    simp [Markers.next, hr, h.server, c]
  have hx : (s.setSession x c).sessions x = c := setSession_self x c
  obtain ⟨hgo, h₁⟩ := h.step hn rfl trivial hx rfl rfl Reader.noConfusion
  exact ⟨_, hgo, h₁, by rw [hx], by rw [hx]⟩

/-- The reader deals with what it has read: it finds the marker, or it goes on. -/
theorem Waiting.forwards (hr : (s.sessions x).reader = .loaded buf) :
    ∃ s', Continues s s' ∧ ((s'.sessions x).input.discardMarker = none ∨
      Waiting s' x k m ∧ (s'.sessions x).reader = .idle ∧
        ¬ markerCells m <:+: (s.sessions x).input.discardedBuffer ++ buf) := by
  let accepts := ((s.sessions x).input.discardedBuffer ++ buf).length
  have hok : (forwardInput (s.sessions x).input buf accepts).2.2 = true :=
    forwardInput_accepts (Nat.le_refl _)
  let c : Session := { s.sessions x with
    input := (forwardInput (s.sessions x).input buf accepts).1, reader := .idle }
  have hn : Markers.next s (.forward x accepts) = some (s.setSession x c) := by
    simp only [Markers.next, hr, hok, if_true]
    rfl
  have hx : (s.setSession x c).sessions x = c := setSession_self x c
  cases hmarker : (forwardInput (s.sessions x).input buf accepts).1.discardMarker with
  | none =>
    -- it was found
    refine ⟨_, .single ⟨.forward x accepts, rfl, trivial, hn⟩, .inl ?_⟩
    rw [hx]
    exact hmarker
  | some m' =>
    have hsame : c.input.discardMarker = (s.sessions x).input.discardMarker :=
      hmarker.trans (forwardInput_keeps hmarker).1.symm
    obtain ⟨hgo, h₁⟩ := h.step hn rfl trivial hx rfl hsame Reader.noConfusion
    refine ⟨_, hgo, .inr ⟨h₁, by rw [hx], ?_⟩⟩
    intro hin
    rw [forwardInput_finds h.marker hin hok] at hmarker
    cases hmarker

/-- **The reader finishes**: it is about to read, or the session waits no more. -/
theorem Waiting.to_idle :
    ∃ s', Continues s s' ∧ ((s'.sessions x).input.discardMarker = none ∨
      Waiting s' x k m ∧ (s'.sessions x).reader = .idle) := by
  have hloaded : ∀ {t : State} {buf : Cells}, Waiting t x k m →
      (t.sessions x).reader = .loaded buf → ∃ s', Continues t s' ∧
        ((s'.sessions x).input.discardMarker = none ∨
          Waiting s' x k m ∧ (s'.sessions x).reader = .idle) := by
    intro t buf ht hr
    obtain ⟨s', hgo, hend⟩ := ht.forwards hr
    exact ⟨s', hgo, hend.imp_right fun ⟨hw, hidle, _⟩ => ⟨hw, hidle⟩⟩
  cases hr : (s.sessions x).reader with
  | starting =>
    obtain ⟨s₁, hgo₁, h₁, hr₁⟩ := h.starts hr
    obtain ⟨s₂, hgo₂, h₂, hr₂⟩ := h₁.connects hr₁
    exact ⟨s₂, hgo₁.trans hgo₂, .inr ⟨h₂, hr₂⟩⟩
  | acked =>
    obtain ⟨s₁, hgo, h₁, hr₁⟩ := h.connects hr
    exact ⟨s₁, hgo, .inr ⟨h₁, hr₁⟩⟩
  | idle => exact ⟨s, .refl, .inr ⟨h, hr⟩⟩
  | got buf =>
    obtain ⟨s₁, hgo₁, h₁, hr₁, -⟩ := h.loads hr
    obtain ⟨s₂, hgo₂, hend⟩ := hloaded h₁ hr₁
    exact ⟨s₂, hgo₁.trans hgo₂, hend⟩
  | loaded buf => exact hloaded h hr
  | stopped => exact absurd hr h.reads

end

/-! ## The messages -/

/-- What is still to be done until all markers are delivered. -/
def State.undone (s : State) : Nat := 2 * s.outbox.length + s.bus.length

/-- The client receives its next message. -/
theorem Waiting.receives (h : Waiting s x k m) {msg : Nat × Event}
    (hfind : s.bus.find? (·.1 == k) = some msg) :
    ∃ s', Continues s s' ∧ Waiting s' x k m ∧ s'.sessions = s.sessions ∧
      s'.undone < s.undone := by
  obtain ⟨k', e⟩ := msg
  obtain ⟨m', he⟩ := h.delivery.noExit _ (List.mem_of_find?_eq_some hfind)
  have hn : Markers.next s (.recv k) =
      some { s.handle k e with bus := s.bus.eraseP (·.1 == k) } := by
    simp only [Markers.next, hfind]
  have hsessions : (s.handle k e).sessions = s.sessions := by
    rw [show e = .discard m' from he]
    rfl
  have hx : (s.handle k e).sessions x = s.sessions x := by rw [hsessions]
  obtain ⟨hgo, h₁⟩ := h.step hn rfl trivial hx rfl rfl h.reads
  refine ⟨_, hgo, h₁, hsessions, ?_⟩
  have houtbox : (s.handle k e).outbox = s.outbox := by
    rw [show e = .discard m' from he]
    rfl
  have hlength := (perm_of_find hfind).length_eq
  simp only [State.undone, houtbox, List.length_cons] at hlength ⊢
  omega

/-- The goroutine with the first marker for the client sends it. -/
theorem Waiting.sends (h : Waiting s x k m) {msg : Nat × Marker}
    (hfind : s.outbox.find? (·.1 == k) = some msg) :
    ∃ s', Continues s s' ∧ Waiting s' x k m ∧ s'.sessions = s.sessions ∧
      s'.undone < s.undone := by
  obtain ⟨k', m'⟩ := msg
  obtain ⟨as, bs, houtbox, -, hp, hno⟩ := split_of_find hfind
  have hk : k' = k := beq_iff_eq.mp hp
  have hget : s.outbox[as.length]? = some (k', m') := by
    rw [houtbox]
    simp
  have hn : Markers.next s (.send as.length) =
      some { s with outbox := s.outbox.eraseIdx as.length
                    bus := s.bus ++ [(k', .discard m')] } := by
    simp only [Markers.next, hget]
  have hok : KnownToClient s (.send as.length) := by
    simp only [KnownToClient, hget]
    intro e he heq
    -- those before it are for other clients
    rw [houtbox, List.take_left] at he
    have hne := hno e he
    rw [heq, hk, beq_self_eq_true] at hne
    cases hne
  obtain ⟨hgo, h₁⟩ := h.step hn rfl hok rfl rfl rfl h.reads
  refine ⟨_, hgo, h₁, rfl, ?_⟩
  have hlt : as.length < s.outbox.length := (List.getElem?_eq_some_iff.mp hget).1
  simp only [State.undone, List.length_eraseIdx_of_lt hlt, List.length_append,
    List.length_singleton]
  omega

/-- A marker for a client is with one of the two. -/
theorem find_of_pending (h : m ∈ s.pending k) :
    (∃ msg, s.bus.find? (·.1 == k) = some msg) ∨ ∃ msg, s.outbox.find? (·.1 == k) = some msg := by
  rcases List.mem_append.mp h with hbus | houtbox
  · obtain ⟨e, he, -⟩ := List.mem_filterMap.mp hbus
    obtain ⟨hmem, hk⟩ := List.mem_filter.mp he
    exact .inl (Option.isSome_iff_exists.mp (List.find?_isSome.mpr ⟨e, hmem, hk⟩))
  · obtain ⟨e, he, -⟩ := List.mem_map.mp houtbox
    obtain ⟨hmem, hk⟩ := List.mem_filter.mp he
    exact .inr (Option.isSome_iff_exists.mp (List.find?_isSome.mpr ⟨e, hmem, hk⟩))

section

variable (h : Waiting s x k m)
include h

/-- **The messages are delivered**: the marker is near the session. -/
theorem Waiting.to_near :
    ∃ s', Continues s s' ∧ Waiting s' x k m ∧ s'.sessions = s.sessions ∧
      Near (s'.sessions x) (s'.objects (s'.sessions x).object) m := by
  -- by induction on what is still to be sent and received
  induction hundone : s.undone using Nat.strong_induction_on generalizing s with
  | _ n ih =>
    have hgoon : ∀ s₁, Continues s s₁ → Waiting s₁ x k m → s₁.sessions = s.sessions →
        s₁.undone < s.undone → ∃ s', Continues s s' ∧ Waiting s' x k m ∧
          s'.sessions = s.sessions ∧
          Near (s'.sessions x) (s'.objects (s'.sessions x).object) m := by
      intro s₁ hgo h₁ hsessions hlt
      obtain ⟨s', hgo', h', hsessions', hnear⟩ := ih s₁.undone (hundone ▸ hlt) h₁ rfl
      exact ⟨s', hgo.trans hgo', h', hsessions'.trans hsessions, hnear⟩
    rcases h.coming with hpending | hnear
    · rcases find_of_pending hpending with ⟨msg, hfind⟩ | ⟨msg, hfind⟩
      · obtain ⟨s₁, hgo, h₁, hsessions, hlt⟩ := h.receives hfind
        exact hgoon s₁ hgo h₁ hsessions hlt
      · obtain ⟨s₁, hgo, h₁, hsessions, hlt⟩ := h.sends hfind
        exact hgoon s₁ hgo h₁ hsessions hlt
    · exact ⟨s, .refl, h, rfl, hnear⟩

/-! ## The input -/

/-- **The user types something**: the marker is in the input of the session. -/
theorem Waiting.to_sent (hr : (s.sessions x).reader = .idle)
    (hnear : Near (s.sessions x) (s.objects (s.sessions x).object) m) :
    ∃ s', Continues s s' ∧ Waiting s' x k m ∧ (s'.sessions x).reader = .idle ∧
      (s'.objects (s'.sessions x).object).stream ≠ [] ∧
      markerCells m <:+: (s'.sessions x).way (s'.objects (s'.sessions x).object) := by
  let o := s.objects (s.sessions x).object
  have hrunning : o.running = true :=
    (h.served x k h.server).running (by rw [hr]; exact Reader.noConfusion)
  -- the state after the input is the one of the definition
  have hn : Markers.next s (.input (s.sessions x).object [0x61]) = some _ :=
    when_true ⟨hrunning, List.cons_ne_nil _ _⟩
  obtain ⟨hgo, h₁⟩ := h.step hn rfl trivial rfl rfl rfl h.reads
  refine ⟨_, hgo, h₁, hr, ?_, ?_⟩
  · rw [setObject_sessions, setObject_self]
    simp [userCells]
  · rw [setObject_sessions, setObject_self]
    rcases hnear.input [0x61] with hmarker | hway
    · -- the object holds no marker any more
      cases hmarker
    · exact hway

/-- The reader takes all the input there is. -/
theorem Waiting.takes (hr : (s.sessions x).reader = .idle)
    (hstream : (s.objects (s.sessions x).object).stream ≠ []) :
    ∃ s', Continues s s' ∧ Waiting s' x k m ∧
      (s'.sessions x).reader = .got (s.objects (s.sessions x).object).stream ∧
      (s'.sessions x).input = (s.sessions x).input := by
  let c := s.sessions x
  let o := s.objects c.object
  let s₁ := (s.setObject c.object { o with stream := o.stream.drop o.stream.length }).setSession x
    { c with reader := .got (o.stream.take o.stream.length) }
  have hconnected : c.connected = true :=
    (h.served x k h.server).connected (by rw [hr]; exact Reader.noConfusion)
      (by rw [hr]; exact Reader.noConfusion)
  have hn : Markers.next s (.read x o.stream.length) = some s₁ :=
    when_true ⟨h.lt, hr, hconnected, List.length_pos_iff.mpr hstream, hstream⟩
  have hx : s₁.sessions x = { c with reader := .got (o.stream.take o.stream.length) } :=
    setSession_self x _
  obtain ⟨hgo, h₁⟩ := h.step hn rfl trivial hx rfl rfl Reader.noConfusion
  exact ⟨s₁, hgo, h₁, by rw [hx, List.take_length], by rw [hx]⟩

/-- **The reader finds the marker.** -/
theorem Waiting.to_end (hr : (s.sessions x).reader = .idle)
    (hstream : (s.objects (s.sessions x).object).stream ≠ [])
    (hway : markerCells m <:+: (s.sessions x).way (s.objects (s.sessions x).object)) :
    ∃ s', Continues s s' ∧ (s'.sessions x).input.discardMarker = none := by
  obtain ⟨s₁, hgo₁, h₁, hr₁, hinput₁⟩ := h.takes hr hstream
  obtain ⟨s₂, hgo₂, h₂, hr₂, hinput₂⟩ := h₁.loads hr₁
  obtain ⟨s₃, hgo₃, hend⟩ := h₂.forwards hr₂
  refine ⟨s₃, hgo₁.trans (hgo₂.trans hgo₃), ?_⟩
  rcases hend with hnone | ⟨-, -, hnot⟩
  · exact hnone
  · -- after `takes` the reader has everything that was on the way
    rw [Session.way, hr, Reader.buf_idle, List.nil_append, ← hinput₁, ← hinput₂] at hway
    exact absurd hway hnot

/-- Discarding can end. -/
theorem Waiting.can_end : ∃ s', Continues s s' ∧ (s'.sessions x).input.discardMarker = none := by
  obtain ⟨s₁, hgo₁, hend | ⟨h₁, hr₁⟩⟩ := h.to_idle
  · exact ⟨s₁, hgo₁, hend⟩
  · obtain ⟨s₂, hgo₂, h₂, hsessions, hnear⟩ := h₁.to_near
    obtain ⟨s₃, hgo₃, h₃, hr₃, hstream, hway⟩ := h₂.to_sent (hsessions ▸ hr₁) hnear
    obtain ⟨s₄, hgo₄, hend⟩ := h₃.to_end hr₃ hstream hway
    exact ⟨s₄, hgo₁.trans (hgo₂.trans (hgo₃.trans hgo₄)), hend⟩

end

/-! ## All runs -/

/-- **The marker of an attached session is coming**, in every run in which the clients get to
    know the markers, and discarding can end without another reconnect. -/
theorem marker_coming
    (hs : (markers.restrict fun s l => l.lossless = true ∧ KnownToClient s l).Reachable s)
    (hserver : (s.sessions x).server = some k)
    (hmarker : (s.sessions x).input.discardMarker = some m) :
    s.Coming x k m ∧ ((s.sessions x).reader ≠ .stopped →
      ∃ s', Continues s s' ∧ (s'.sessions x).input.discardMarker = none) := by
  have hwiring : ∀ s, (markers.restrict fun s l => l.lossless = true ∧
      KnownToClient s l).Reachable s → Wiring s := fun s hs => markers_wiring hs.of_restrict
  have hdelivery : Delivery s := by
    refine System.invariant_with _ hwiring ?_ ?_ hs
    · rintro s rfl
      exact start_delivery
    · intro s l s' hw h ⟨⟨hl, hok⟩, hstep⟩
      exact h.next hw hl hok hstep
  have hserved : AllServed s := by
    refine System.invariant_with _ hwiring ?_ ?_ hs
    · rintro s rfl
      exact start_allServed
    · intro s l s' hw h ⟨_, hstep⟩
      exact h.next hw hstep
  refine ⟨hdelivery.coming x k m hserver hmarker, fun hreads => ?_⟩
  exact Waiting.can_end ⟨hwiring s hs, hdelivery, hserved, hserver, hmarker, hreads⟩

/-- The client of a session reconnects and is told the marker. -/
def markerStored : List Label := oneSession ++ [.reconnect 1, .send 0, .recv 1]

theorem marker_coming_stored :
    ∃ s, (markers.restrict fun s l => l.lossless = true ∧ KnownToClient s l).Reachable s ∧
      s.Coming 0 1 ⟨0, 1⟩ ∧
      ∃ s', Continues s s' ∧ (s'.sessions 0).input.discardMarker = none := by
  obtain ⟨s, hrun, hserver, hmarker, hreads⟩ : ∃ s,
      runLabels (fun s l => if l.lossless = true ∧ KnownToClient s l then next s l else none)
        start markerStored = some s ∧
      (s.sessions 0).server = some 1 ∧ (s.sessions 0).input.discardMarker = some ⟨0, 1⟩ ∧
      (s.sessions 0).reader ≠ .stopped :=
    exists_of_runLabels (by decide +kernel)
  have hs := System.Reachable.of_runLabels_restrict hrun
  obtain ⟨hcoming, hend⟩ := marker_coming hs hserver hmarker
  exact ⟨s, hs, hcoming, hend hreads⟩

/-- Client `2` takes over, which detaches the session, and reconnects: the session is marked
    while it is detached.  The client attaches to it after the marker has been delivered. -/
def markedDetached : List Label :=
  oneSession ++ [.activate 2, .reconnect 2, .send 0, .recv 2, .newSession 2 2, .attachTo 1 1,
    .lookup 1, .attach 1]

/-- The session waits for a marker that nobody has any more. -/
theorem marker_lost :
    ∃ s, (markers.restrict fun _ l => l.lossless = true).Reachable s ∧
      (s.sessions 0).server = some 2 ∧ (s.sessions 0).input.discardMarker = some ⟨0, 1⟩ ∧
      ¬ s.Coming 0 2 ⟨0, 1⟩ := by
  obtain ⟨s, hrun, hend⟩ : ∃ s,
      runLabels (fun s l => if l.lossless = true then next s l else none) start
        markedDetached = some s ∧
      (s.sessions 0).server = some 2 ∧ (s.sessions 0).input.discardMarker = some ⟨0, 1⟩ ∧
      ¬ s.Coming 0 2 ⟨0, 1⟩ :=
    exists_of_runLabels (by decide +kernel)
  exact ⟨s, System.Reachable.of_runLabels_restrict hrun, hend⟩

end Markers
