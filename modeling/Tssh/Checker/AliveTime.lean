import Tssh.Framework.Ring
import Mathlib.Data.List.GetD

/-! # When the Packet Cache Is Dropped

    The server keeps the last five times at which an alive message came in a ring, `aliveTime`
    (`tsshd/comm.go`).  A message that comes more than the heartbeat timeout after the last one
    sets `pendingClearPktCache`: the client was away and is back, and the packets cached for it
    may be needed again.  The cache is dropped once the client is stable, that is when the last
    five messages lie within less than six intervals (`handleAliveEvent` in `tsshd/bus.go`).

    * `AliveTime.Records`: what the ring holds of the history.
    * `cache_dropped_iff`: flag and ring decide as the whole history does.  With messages at least
      an interval apart and the timeout of at least three intervals that the client chooses
      (`tssh/udp.go`), it takes five messages after the gap.
-/

namespace Alive

/-! ## The ring -/

def kAliveTimeCap : Nat := 5

/-- `aliveTime`. -/
structure AliveTime where
  last : Nat
  buf : List Int
  inRange : last < kAliveTimeCap
  size : buf.length = kAliveTimeCap
  deriving DecidableEq, Repr

/-- The zero value. -/
def AliveTime.zero : AliveTime := ⟨0, List.replicate kAliveTimeCap 0, by decide, by decide⟩

def AliveTime.addMilli (t : AliveTime) (milli : Int) : AliveTime where
  last := (t.last + 1) % kAliveTimeCap
  buf := t.buf.set ((t.last + 1) % kAliveTimeCap) milli
  inRange := Nat.mod_lt _ (by decide)
  size := by rw [List.length_set, t.size]

def AliveTime.latest (t : AliveTime) : Int := t.buf.getD t.last 0

def AliveTime.oldest (t : AliveTime) : Int := t.buf.getD ((t.last + 1) % kAliveTimeCap) 0

/-- Read from the oldest slot on, the ring is the end of the history, with zeros before it. -/
def AliveTime.Records (t : AliveTime) (history : List Int) : Prop :=
  t.buf.rotate ((t.last + 1) % kAliveTimeCap) =
    (List.replicate kAliveTimeCap 0 ++ history).rtake kAliveTimeCap

namespace AliveTime

variable {t : AliveTime} {history : List Int}

theorem zero_records : zero.Records [] := by
  unfold Records
  decide

theorem mod_advance {i : Nat} (hi : i < kAliveTimeCap) :
    (i + 1) % kAliveTimeCap = Ring.advance kAliveTimeCap i := by
  unfold Ring.advance
  split
  · have heq : i + 1 = kAliveTimeCap := by omega
    rw [heq, Nat.mod_self]
  · exact Nat.mod_eq_of_lt (by omega)

theorem addMilli_records (h : t.Records history) (milli : Int) :
    (t.addMilli milli).Records (history ++ [milli]) := by
  have hidx : (t.last + 1) % kAliveTimeCap < kAliveTimeCap := Nat.mod_lt _ (by decide)
  show (t.buf.set ((t.last + 1) % kAliveTimeCap) milli).rotate
    (((t.last + 1) % kAliveTimeCap + 1) % kAliveTimeCap) = _
  rw [mod_advance hidx, ← List.append_assoc]
  exact Ring.set_keeps_last (by decide) t.size hidx (by simp) h milli

/-- What is read `i` slots after the oldest one. -/
theorem Records.getD (h : t.Records history) {i : Nat} (hi : i < kAliveTimeCap) :
    t.buf.getD ((i + (t.last + 1) % kAliveTimeCap) % kAliveTimeCap) 0 =
      (List.replicate kAliveTimeCap 0 ++ history).getD (history.length + i) 0 := by
  have hread : (t.buf.rotate ((t.last + 1) % kAliveTimeCap))[i]? =
      ((List.replicate kAliveTimeCap 0 ++ history).rtake kAliveTimeCap)[i]? := by rw [h]
  rw [List.getElem?_rotate (by rw [t.size]; exact hi), t.size, List.rtake, List.getElem?_drop]
    at hread
  have hlen : (List.replicate kAliveTimeCap 0 ++ history).length - kAliveTimeCap + i =
      history.length + i := by
    rw [List.length_append, List.length_replicate]
    omega
  rw [hlen] at hread
  rw [List.getD_eq_getElem?_getD, List.getD_eq_getElem?_getD, hread]

theorem latest_eq {milli : Int} (h : t.Records (history ++ [milli])) : t.latest = milli := by
  have hslot : (4 + (t.last + 1) % kAliveTimeCap) % kAliveTimeCap = t.last := by
    have hlt := t.inRange
    unfold kAliveTimeCap at *
    omega
  have hread := h.getD (i := 4) (by decide)
  rw [hslot] at hread
  rw [latest, hread, List.getD_eq_getElem?_getD, List.length_append, List.length_singleton,
    ← List.append_assoc, List.getElem?_append_right (by simp [kAliveTimeCap])]
  simp [kAliveTimeCap]

/-- The oldest of the five times, or zero while there are fewer. -/
theorem oldest_eq (h : t.Records history) :
    t.oldest = if kAliveTimeCap ≤ history.length then history.getD (history.length - kAliveTimeCap) 0
      else 0 := by
  have hread := h.getD (i := 0) (by decide)
  rw [Nat.zero_add, Nat.mod_mod] at hread
  rw [oldest, hread, Nat.add_zero, List.getD_eq_getElem?_getD]
  split
  · next hlen =>
    rw [List.getElem?_append_right (by rw [List.length_replicate]; exact hlen),
      List.length_replicate, List.getD_eq_getElem?_getD]
  · next hlen =>
    rw [List.getElem?_append_left (by rw [List.length_replicate]; omega)]
    simp [Nat.not_le.mp hlen]

end AliveTime

/-! ## The server -/

/-- What `sshUdpServer` knows about its client. -/
structure Server where
  clientAliveTime : AliveTime
  pendingClearPktCache : Bool
  deriving DecidableEq, Repr

section

-- `heartbeatTimeoutMilli` and `intervalTimeMilli`
variable (timeout interval : Int)

/-- `initBusAndServer`, at time `now`. -/
def initServer (now : Int) : Server where
  clientAliveTime := AliveTime.zero.addMilli now
  pendingClearPktCache := false

/-- `handleAliveEvent`, at time `now`; with it, whether it drops the cache. -/
def handleAliveEvent (now : Int) (s : Server) : Server × Bool :=
  let pending := decide (now - s.clientAliveTime.latest > timeout) || s.pendingClearPktCache
  let alive := s.clientAliveTime.addMilli now
  if pending && decide (now - alive.oldest < (kAliveTimeCap + 1) * interval) then
    ({ clientAliveTime := alive, pendingClearPktCache := false }, true)
  else ({ clientAliveTime := alive, pendingClearPktCache := pending }, false)

/-- The server after alive messages at the given times. -/
def serve (start : Int) (times : List Int) : Server :=
  times.foldl (fun s now => (handleAliveEvent timeout interval now s).1) (initServer start)

/-- Message `j` came more than the timeout after the one before it. -/
def Reconnected (times : List Int) (j : Nat) : Prop :=
  1 ≤ j ∧ j < times.length ∧ times.getD j 0 - times.getD (j - 1) 0 > timeout

/-- Message `m` and the four before it lie within less than six intervals. -/
def Stable (times : List Int) (m : Nat) : Prop :=
  4 ≤ m ∧ m < times.length ∧ times.getD m 0 - times.getD (m - 4) 0 < 6 * interval

/-- The client came back, and has not been stable since. -/
def Unsettled (times : List Int) : Prop :=
  ∃ j, Reconnected timeout times j ∧ ∀ m, j ≤ m → m < times.length → ¬ Stable interval times m

variable {timeout interval} {times : List Int} {now : Int}

theorem reconnected_append (hne : times ≠ []) {j : Nat} :
    Reconnected timeout (times ++ [now]) j ↔
      Reconnected timeout times j ∨ j = times.length ∧ now - times.getLast hne > timeout := by
  have hpos := List.length_pos_iff.mpr hne
  have hlast : times.getLast hne = times.getD (times.length - 1) 0 := by
    rw [List.getLast_eq_getElem, List.getD_eq_getElem?_getD, List.getElem?_eq_getElem (by omega),
      Option.getD_some]
  unfold Reconnected
  rw [List.length_append, List.length_singleton, hlast]
  rcases Nat.lt_trichotomy j times.length with hlt | heq | hgt
  · rw [List.getD_append _ _ _ _ hlt, List.getD_append _ _ _ _ (by omega : j - 1 < times.length)]
    constructor
    · intro h
      exact .inl ⟨h.1, hlt, h.2.2⟩
    · intro h
      rcases h with h | ⟨heq, -⟩
      · exact ⟨h.1, by omega, h.2.2⟩
      · omega
  · subst heq
    rw [List.getD_append_right _ _ _ _ (Nat.le_refl _), Nat.sub_self,
      List.getD_append _ _ _ _ (by omega : times.length - 1 < times.length)]
    constructor
    · intro h
      exact .inr ⟨rfl, h.2.2⟩
    · intro h
      rcases h with h | ⟨-, h⟩
      · exact absurd h.2.1 (Nat.lt_irrefl _)
      · exact ⟨by omega, by omega, h⟩
  · constructor
    · intro h
      omega
    · intro h
      rcases h with h | ⟨heq, -⟩ <;> omega

theorem stable_append_of_lt {m : Nat} (hm : m < times.length) :
    Stable interval (times ++ [now]) m ↔ Stable interval times m := by
  unfold Stable
  rw [List.length_append, List.length_singleton, List.getD_append _ _ _ _ hm,
    List.getD_append _ _ _ _ (by omega : m - 4 < times.length)]
  constructor
  · intro h
    exact ⟨h.1, hm, h.2.2⟩
  · intro h
    exact ⟨h.1, by omega, h.2.2⟩

/-- The last message of a history. -/
theorem stable_append_length :
    Stable interval (times ++ [now]) times.length ↔
      4 ≤ times.length ∧ now - times.getD (times.length - 4) 0 < 6 * interval := by
  unfold Stable
  rw [List.length_append, List.length_singleton, List.getD_append_right _ _ _ _ (Nat.le_refl _),
    Nat.sub_self]
  constructor
  · intro h
    obtain ⟨hlen, -, hlt⟩ := h
    rw [List.getD_append _ _ _ _ (by omega : times.length - 4 < times.length)] at hlt
    exact ⟨hlen, hlt⟩
  · intro ⟨hlen, hlt⟩
    rw [List.getD_append _ _ _ _ (by omega : times.length - 4 < times.length)]
    exact ⟨hlen, by omega, hlt⟩

/-- **One more message**: the client is unsettled before the message is judged, and stays so
    unless the message makes it stable. -/
theorem unsettled_append (hne : times ≠ []) :
    Unsettled timeout interval (times ++ [now]) ↔
      (now - times.getLast hne > timeout ∨ Unsettled timeout interval times) ∧
        ¬ Stable interval (times ++ [now]) times.length := by
  have hlen : (times ++ [now]).length = times.length + 1 := by simp
  constructor
  · intro ⟨j, hj, hall⟩
    refine ⟨?_, hall _ (by have := hj.2.1; omega) (by omega)⟩
    rcases (reconnected_append hne).mp hj with hj | ⟨-, hgap⟩
    · refine .inr ⟨j, hj, fun m hjm hm hstable => ?_⟩
      exact hall m hjm (by omega) ((stable_append_of_lt hm).mpr hstable)
    · exact .inl hgap
  · intro ⟨hback, hlast⟩
    rcases hback with hgap | ⟨j, hj, hall⟩
    · refine ⟨times.length, (reconnected_append hne).mpr (.inr ⟨rfl, hgap⟩), ?_⟩
      intro m hjm hm
      have heq : m = times.length := by omega
      rw [heq]
      exact hlast
    · refine ⟨j, (reconnected_append hne).mpr (.inl hj), ?_⟩
      intro m hjm hm
      by_cases hlt : m < times.length
      · rw [stable_append_of_lt hlt]
        exact hall m hjm hlt
      · have heq : m = times.length := by omega
        rw [heq]
        exact hlast

/-- Flag and ring stand for the history. -/
structure Server.Follows (timeout interval : Int) (s : Server) (times : List Int) : Prop where
  nonempty : times ≠ []
  records : s.clientAliveTime.Records times
  flag : s.pendingClearPktCache = true ↔ Unsettled timeout interval times

theorem initServer_follows (start : Int) :
    (initServer start).Follows timeout interval [start] where
  nonempty := List.cons_ne_nil _ _
  records := AliveTime.addMilli_records AliveTime.zero_records start
  flag := by
    refine ⟨nofun, ?_⟩
    intro h
    obtain ⟨j, hj, -⟩ := h
    have hlt := hj.2.1
    simp only [List.length_singleton] at hlt
    exact absurd hj.1 (by omega)

/-- **One message**: the server goes on following the history, and drops the cache where the
    message makes an unsettled client stable. -/
theorem Server.Follows.handleAliveEvent {s : Server} (h : s.Follows timeout interval times)
    (hclock : 6 * interval ≤ now) :
    (handleAliveEvent timeout interval now s).1.Follows timeout interval (times ++ [now]) ∧
      ((Alive.handleAliveEvent timeout interval now s).2 = true ↔
        (now - times.getLast h.nonempty > timeout ∨ Unsettled timeout interval times) ∧
          Stable interval (times ++ [now]) times.length) := by
  have hrecords := AliveTime.addMilli_records h.records now
  have hlatest : s.clientAliveTime.latest = times.getLast h.nonempty := by
    have hsplit : s.clientAliveTime.Records (times.dropLast ++ [times.getLast h.nonempty]) := by
      rw [List.dropLast_append_getLast h.nonempty]
      exact h.records
    exact AliveTime.latest_eq hsplit
  have hpending : (decide (now - s.clientAliveTime.latest > timeout) || s.pendingClearPktCache) =
      true ↔ (now - times.getLast h.nonempty > timeout ∨ Unsettled timeout interval times) := by
    rw [Bool.or_eq_true, decide_eq_true_eq, hlatest, h.flag]
  -- while there are fewer than five messages the oldest time is zero, which is long ago
  have hstable : now - (s.clientAliveTime.addMilli now).oldest < (kAliveTimeCap + 1) * interval ↔
      Stable interval (times ++ [now]) times.length := by
    rw [stable_append_length, AliveTime.oldest_eq hrecords, List.length_append,
      List.length_singleton]
    show now - _ < 6 * interval ↔ _
    split
    · next hlen =>
      have hlen : 5 ≤ times.length + 1 := hlen
      have hidx : times.length + 1 - kAliveTimeCap = times.length - 4 := by
        show times.length + 1 - 5 = _
        omega
      rw [hidx, List.getD_append _ _ _ _ (by omega : times.length - 4 < times.length)]
      exact ⟨fun hlt => ⟨by omega, hlt⟩, fun hlt => hlt.2⟩
    · next hlen =>
      have hlen : ¬ 5 ≤ times.length + 1 := hlen
      constructor
      · intro hlt
        omega
      · intro hlt
        omega
  unfold Alive.handleAliveEvent
  simp only
  split
  · next hdrop =>
    rw [Bool.and_eq_true, decide_eq_true_eq, hpending, hstable] at hdrop
    refine ⟨⟨by simp, hrecords, ⟨nofun, fun hu => ?_⟩⟩, ⟨fun _ => hdrop, fun _ => rfl⟩⟩
    exact absurd hdrop.2 ((unsettled_append h.nonempty).mp hu).2
  · next hkeep =>
    rw [Bool.and_eq_true, decide_eq_true_eq, hpending, hstable] at hkeep
    refine ⟨⟨by simp, hrecords, ?_⟩, ⟨nofun, fun hdrop => absurd hdrop hkeep⟩⟩
    rw [unsettled_append h.nonempty]
    show (decide (now - s.clientAliveTime.latest > timeout) || s.pendingClearPktCache) = true ↔ _
    rw [hpending]
    exact ⟨fun hu => ⟨hu, fun hs => hkeep ⟨hu, hs⟩⟩, fun hu => hu.1⟩

/-! ## Runs -/

/-- The server follows the messages it has served. -/
theorem serve_follows (start : Int) (hclock : ∀ t ∈ times, 6 * interval ≤ t) :
    (serve timeout interval start times).Follows timeout interval (start :: times) := by
  -- by induction on the messages, the last one first
  induction times using List.reverseRecOn with
  | nil => exact initServer_follows start
  | append_singleton times now ih =>
    have ih := ih fun t ht => hclock t (List.mem_append_left _ ht)
    have hnow := hclock now (List.mem_append_right _ List.mem_cons_self)
    rw [serve, List.foldl_append]
    exact (ih.handleAliveEvent hnow).1

/-- Four gaps between five messages: with one of them above the timeout and the others at least
    `spacing`, the messages are not within six intervals. -/
theorem not_stable_of_gap {spacing : Int} (hsum : 6 * interval ≤ 3 * spacing + timeout)
    (hspaced : ∀ i, i + 1 < times.length → spacing ≤ times.getD (i + 1) 0 - times.getD i 0)
    {j m : Nat} (hj : Reconnected timeout times j) (hm : Stable interval times m) (hjm : j ≤ m) :
    j + 4 ≤ m := by
  by_contra hlt
  obtain ⟨hpos, -, hgap⟩ := hj
  obtain ⟨hfour, hmlen, hspan⟩ := hm
  obtain ⟨k, rfl⟩ := Nat.exists_eq_add_of_le' hfour
  obtain ⟨i, rfl⟩ := Nat.exists_eq_add_of_le' hpos
  have h0 := hspaced k (by omega)
  have h1 := hspaced (k + 1) (by omega)
  have h2 := hspaced (k + 2) (by omega)
  have h3 := hspaced (k + 3) (by omega)
  rw [Nat.add_sub_cancel] at hgap hspan
  have hcases : i = k ∨ i = k + 1 ∨ i = k + 2 ∨ i = k + 3 := by omega
  rcases hcases with rfl | rfl | rfl | rfl
  all_goals
    simp only [Nat.add_assoc, Nat.reduceAdd] at h1 h2 h3 hgap
    omega

/-- **When the cache is dropped**: exactly by the first message that makes the client stable after
    it came back.  Where messages come at least `spacing` apart and three such gaps with the
    timeout cover six intervals, that is the fifth message after the gap or a later one. -/
theorem cache_dropped_iff (timeout interval start now : Int) (times : List Int)
    (hclock : ∀ t ∈ times ++ [now], 6 * interval ≤ t) :
    let history := start :: times ++ [now]
    let dropped := (handleAliveEvent timeout interval now (serve timeout interval start times)).2
    (dropped = true ↔ Stable interval history (times.length + 1) ∧
      ∃ j, Reconnected timeout history j ∧
        ∀ m, j ≤ m → m < times.length + 1 → ¬ Stable interval history m) ∧
    ∀ spacing, 6 * interval ≤ 3 * spacing + timeout →
      (∀ i, i + 1 < history.length → spacing ≤ history.getD (i + 1) 0 - history.getD i 0) →
      dropped = true → ∀ j, Reconnected timeout history j → j + 4 ≤ times.length + 1 := by
  intro history dropped
  have hfollows : (serve timeout interval start times).Follows timeout interval (start :: times) :=
    serve_follows start fun t ht => hclock t (List.mem_append_left _ ht)
  have hnow := hclock now (List.mem_append_right _ List.mem_cons_self)
  have hdropped : dropped = true ↔ (now - (start :: times).getLast hfollows.nonempty > timeout ∨
      Unsettled timeout interval (start :: times)) ∧
        Stable interval history (times.length + 1) := (hfollows.handleAliveEvent hnow).2
  refine ⟨?_, ?_⟩
  · rw [hdropped, and_comm]
    refine and_congr_right fun _ => ?_
    constructor
    · intro hback
      rcases hback with hgap | ⟨j, hj, hall⟩
      · exact ⟨times.length + 1, (reconnected_append hfollows.nonempty).mpr (.inr ⟨rfl, hgap⟩),
          fun m hjm hm => absurd hm (Nat.not_lt.mpr hjm)⟩
      · refine ⟨j, (reconnected_append hfollows.nonempty).mpr (.inl hj), fun m hjm hm => ?_⟩
        exact fun hs => hall m hjm hm ((stable_append_of_lt hm).mp hs)
    · intro ⟨j, hj, hall⟩
      rcases (reconnected_append hfollows.nonempty).mp hj with hj | ⟨-, hgap⟩
      · refine .inr ⟨j, hj, fun m hjm hm hs => hall m hjm hm ((stable_append_of_lt hm).mpr hs)⟩
      · exact .inl hgap
  · intro spacing hsum hspaced hdrop j hj
    have hlen : history.length = times.length + 1 + 1 := by simp [history]
    exact not_stable_of_gap hsum hspaced hj (hdropped.mp hdrop).2 (by have := hj.2.1; omega)

/-- An interval of ten, a timeout of thirty, and a client that is away from 1030 to 1070: the
    fifth message after the gap drops the cache. -/
theorem cache_dropped_by_fifth :
    let times := [1010, 1020, 1030, 1070, 1080, 1090, 1100]
    (∀ t ∈ times ++ [1110], (6 * 10 : Int) ≤ t) ∧
      (handleAliveEvent 30 10 1110 (serve 30 10 1000 times)).2 = true ∧
      ∀ j, Reconnected 30 (1000 :: times ++ [1110]) j → j + 4 ≤ 8 := by
  intro times
  have hclock : ∀ t ∈ times ++ [1110], (6 * 10 : Int) ≤ t := by simp [times]
  have hdrop : (handleAliveEvent 30 10 1110 (serve 30 10 1000 times)).2 = true := by
    decide +kernel
  refine ⟨hclock, hdrop, ?_⟩
  refine (cache_dropped_iff 30 10 1000 1110 times hclock).2 10 (by decide) ?_ hdrop
  intro i hi
  have hi : i + 1 < 9 := hi
  have hcases : i = 0 ∨ i = 1 ∨ i = 2 ∨ i = 3 ∨ i = 4 ∨ i = 5 ∨ i = 6 ∨ i = 7 := by omega
  rcases hcases with rfl | rfl | rfl | rfl | rfl | rfl | rfl | rfl <;> decide

end

end Alive
