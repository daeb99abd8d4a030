import Tssh.Output.Forward
import Tssh.Output.Ledger

/-! # No Output Is Lost, Duplicated or Reordered

    `forwardOutput` keeps a sound ledger: every step of the mutex holder is one of
    the ledger's operations or leaves it as it is.  The abstraction of a state has

    * in **front** what is in the channel, or was just received from it,
    * **behind** it the cached lines that a flush in progress has not passed yet,
      then what the mutex holder has in its hands and then what the reader has.

    The result is `output_delivered`, about every moment at which the reader waits
    for program output.
-/

open Go LTS

namespace Output

variable {cfg : Config} {s s' : State}

/-! ## The ledger of a state -/

/-- The bytes in the hands of the mutex holder. -/
def Pc.hand : Pc → Bytes
  | .handle buf | .handleKeep buf | .direct buf | .directKeep buf => buf
  | .send buf remaining _ | .full buf remaining _ | .fullKeep buf remaining _
  | .waitReconnected buf remaining _ | .drain buf remaining _ | .resend _ buf remaining =>
    buf ++ remaining
  | _ => []

/-- How many lines the flush in progress has passed. -/
def Pc.passed : Pc → Nat
  | .flushAt _ i | .flushFull _ i => i - 1
  | _ => 0

def Reader.hand : Reader → Bytes
  | .read buf => buf
  | _ => []

/-- The cached lines without those the flush in progress has passed. -/
def State.stillCached (s : State) : List Bytes := s.cache.cacheLines.drop s.pc.passed

/-- What the mutex holder has received from the channel. -/
def Pc.received : Pc → Option Bytes
  | .resend received _ _ => some received
  | _ => none

def State.front (s : State) : Bytes := s.pc.received.getD (s.ch.getD [])

def State.back (s : State) : Bytes := s.stillCached.flatten ++ (s.pc.hand ++ s.reader.hand)

/-- The counters say how much of `unreported` has to be reported. -/
structure Cache.Owes (c : Cache) (unreported : List Bytes) : Prop where
  lines : c.discardLines = unreported.length
  bytes : c.discardBytes = unreported.flatten.length

/-- The history of `s` is accounted for with `front` and `back`. -/
def State.Accounts (s : State) (front back : Bytes) : Prop :=
  ∃ unreported, Ledger.Sound ⟨s.taken, front, unreported, back, s.input, s.flushed,
    s.cache.dropped, s.reported⟩ ∧ s.cache.Owes unreported

/-! ## The invariant -/

/-- What is always true of the cache. -/
structure Cache.Ok (cfg : Config) (c : Cache) : Prop where
  lines : ∀ l ∈ c.cacheLines, IsLine l
  tmux : newline ∉ c.tmuxOutputPrefix
  bound : c.cacheLines.length ≤ cfg.maxLines
  owed : c.cacheLines = [] → c.discardLines = 0

/-- The reader holds the mutex unless a callback does. -/
def Caller.Holds (reader : Reader) : Caller → Prop
  | .onReconnected => True
  | _ => reader = .busy

/-- What the place of the mutex holder says about the rest of the state. -/
def Pc.Place (c : Cache) (ch : Option Bytes) (reader : Reader) : Pc → Prop
  | .free => True
  | .handle _ | .handleKeep _ | .lastFlush | .lastWait => reader = .busy
  | .direct _ | .directKeep _ | .send .. | .full .. | .fullKeep .. | .waitReconnected ..
  | .drain .. => reader = .busy ∧ c.cacheLines = []
  | .resend .. => reader = .busy ∧ c.cacheLines = [] ∧ ch = none
  | .flush caller => caller.Holds reader
  | .flushAt caller i =>
    caller.Holds reader ∧ c.cacheLines ≠ [] ∧ (0 < i → c.discardLines = 0)
  | .flushFull caller i =>
    caller.Holds reader ∧ i ≤ c.cacheLines.length ∧ c.cacheLines ≠ [] ∧
      (0 < i → c.discardLines = 0)

def State.Place (s : State) : Prop := s.pc.Place s.cache s.ch s.reader

structure Inv (cfg : Config) (s : State) : Prop where
  accounts : s.Accounts s.front s.back
  cache : s.cache.Ok cfg
  place : s.Place

variable {pc : Pc} {c : Cache} {buf front remaining : Bytes} {counted : Bool} {caller : Caller}
  {i : Nat}

theorem Inv.placeAt (h : Inv cfg s) (hpc : s.pc = pc) :
    pc.Place s.cache s.ch s.reader := hpc ▸ h.place

/-! ## Caching -/

theorem Cache.Ok.cacheOutput (h : c.Ok cfg) (buf : Bytes) : (cacheOutput cfg c buf).Ok cfg := by
  obtain ⟨gone, hsplit, -⟩ := cacheOutput_spec cfg c buf
  refine ⟨?_, newline_notMem_cacheOutput cfg h.tmux h.lines, length_cacheOutput_le cfg c buf, ?_⟩
  · intro l hl
    exact cacheAll_isLine buf h.lines l (hsplit ▸ List.mem_append_right gone hl)
  · intro hnil
    obtain ⟨hcache, -, hsame⟩ := cacheOutput_eq_nil hnil
    exact hsame.trans (h.owed hcache)

/-- Caching keeps the account: what is dropped was the oldest output kept. -/
theorem State.Accounts.cacheBuf {front buf rest : Bytes}
    (h : s.Accounts front (s.cache.cacheLines.flatten ++ (buf ++ rest))) :
    (s.cacheBuf cfg buf).Accounts front
      ((s.cacheBuf cfg buf).cache.cacheLines.flatten ++ rest) := by
  obtain ⟨u, hsound, howes⟩ := h
  obtain ⟨gone, hsplit, hdropped, hlines, hbytes, -⟩ := cacheOutput_spec cfg s.cache buf
  have hback : s.cache.cacheLines.flatten ++ (buf ++ rest) =
      gone.flatten ++ ((cacheOutput cfg s.cache buf).cacheLines.flatten ++ rest) := by
    rw [← List.append_assoc, ← cacheAll_flatten, hsplit, List.flatten_append, List.append_assoc]
  refine ⟨u ++ gone, ?_, ?_, ?_⟩
  · show Ledger.Sound ⟨_, _, _, _, _, _, (cacheOutput cfg s.cache buf).dropped, _⟩
    rw [hdropped]
    exact hsound.drop hback
  · show (cacheOutput cfg s.cache buf).discardLines = _
    rw [hlines, howes.lines, List.length_append]
  · show (cacheOutput cfg s.cache buf).discardBytes = _
    rw [hbytes, howes.bytes, List.flatten_append, List.length_append]

/-- Caching the last bytes in hand. -/
theorem State.Accounts.cacheLast (cfg : Config)
    (h : s.Accounts front (s.cache.cacheLines.flatten ++ buf)) :
    (s.cacheBuf cfg buf).Accounts front
      ((s.cacheBuf cfg buf).cache.cacheLines.flatten ++ []) :=
  State.Accounts.cacheBuf (by rwa [List.append_nil])

theorem Cache.Owes.eq_nil {u : List Bytes} (hc : c.Owes u) (h : c.discardLines = 0) :
    u = [] := List.eq_nil_of_length_eq_zero (hc.lines.symm.trans h)

/-! ## Sending -/

/-- Bytes in hand join a front without a newline. -/
theorem State.Accounts.extend {front buf rest : Bytes} (h : s.Accounts front (buf ++ rest))
    (hd : s.cache.discardLines = 0) (hfront : newline ∉ front) : s.Accounts (front ++ buf) rest := by
  obtain ⟨u, hsound, howes⟩ := h
  exact ⟨u, hsound.extend (howes.eq_nil hd) hfront rfl, howes⟩

/-- What was received from the channel and the bytes in hand are sent up to their first
    newline. -/
theorem State.Accounts.resend {received buf remaining x y : Bytes}
    (h : s.Accounts received (buf ++ remaining)) (hd : s.cache.discardLines = 0)
    (hx : newline ∉ x) (heq : received ++ buf = x ++ newline :: y) :
    s.Accounts (x ++ [newline]) (y ++ remaining) := by
  -- the newline is in the bytes in hand, and the front has none
  have hextend : ∀ c, x = received ++ c → buf = c ++ newline :: y →
      s.Accounts (x ++ [newline]) (y ++ remaining) := by
    intro c hxc hbuf
    have hno : newline ∉ received := fun hm => hx (hxc ▸ List.mem_append_left c hm)
    have hback : buf ++ remaining = (c ++ [newline]) ++ (y ++ remaining) := by simp [hbuf]
    rw [hback] at h
    rw [hxc, List.append_assoc]
    exact h.extend hd hno
  rcases List.append_eq_append_iff.mp heq with ⟨c, hxc, hbuf⟩ | ⟨c, hrec, hy⟩
  · exact hextend c hxc hbuf
  · match c, hy with
    | [], hy =>
      -- the bytes in hand begin with the newline
      exact hextend [] (by simpa using hrec.symm) (by simpa using hy.symm)
    | b :: c, hy =>
      -- the newline was in the channel, and what is behind it is called back
      obtain ⟨rfl, hyc⟩ := List.cons.inj hy
      obtain ⟨u, hsound, howes⟩ := h
      rw [show y = c ++ buf from hyc, List.append_assoc]
      exact ⟨u, hsound.call_back (howes.eq_nil hd) hrec, howes⟩

/-! ## `handleBuffer` -/

/-- The end of `handleBuffer` with nothing in hand. -/
theorem return_inv (h : s.Accounts (s.ch.getD []) (s.cache.cacheLines.flatten ++ []))
    (hc : s.cache.Ok cfg) : Inv cfg (s.leave .handleBuffer) := ⟨h, hc, trivial⟩

theorem finish_inv (h : s.Accounts (s.ch.getD []) (s.cache.cacheLines.flatten ++ remaining))
    (hc : s.cache.Ok cfg) : Inv cfg (s.finish cfg remaining) := by
  unfold State.finish
  split
  · next hnil => exact return_inv (hnil ▸ h) hc
  · exact return_inv (h.cacheLast cfg) (hc.cacheOutput remaining)

/-- A step that only moves on keeps the invariant. -/
theorem goto_inv {pc pc' : Pc} (h : Inv cfg s) (hpc : s.pc = pc) (hhand : pc'.hand = pc.hand)
    (hpassed : pc'.passed = pc.passed) (hreceived : pc'.received = pc.received)
    (hplace : (s.goto pc').Place) : Inv cfg (s.goto pc') := by
  have hacc := h.accounts
  rw [State.front, State.back, State.stillCached, hpc, ← hhand, ← hpassed, ← hreceived] at hacc
  exact ⟨hacc, h.cache, hplace⟩

/-- The account of a reader that holds the mutex: in front the channel, behind it the cache
    and the bytes in hand. -/
theorem Inv.handler (h : Inv cfg s) (hpc : s.pc = pc) (hr : s.reader = .busy)
    (hpassed : pc.passed = 0) :
    s.Accounts (pc.received.getD (s.ch.getD [])) (s.cache.cacheLines.flatten ++ pc.hand) := by
  have hacc := h.accounts
  rw [State.front, State.back, State.stillCached, hpc, hpassed, hr, List.drop_zero] at hacc
  simpa [Reader.hand] using hacc

theorem handleRest_inv (h : s.Accounts (s.ch.getD []) (s.cache.cacheLines.flatten ++ buf))
    (hc : s.cache.Ok cfg) (hr : s.reader = .busy) : Inv cfg (s.handleRest cfg buf) := by
  unfold State.handleRest
  split
  · next hnil =>
    refine ⟨?_, hc, hr, hnil⟩
    show State.Accounts _ _ (s.cache.cacheLines.flatten ++ (buf ++ s.reader.hand))
    rw [hr, show Reader.busy.hand = [] from rfl, List.append_nil]
    exact h
  · refine ⟨?_, hc.cacheOutput buf, hr⟩
    show State.Accounts _ _ ((cacheOutput cfg s.cache buf).cacheLines.flatten ++ s.reader.hand)
    rw [hr]
    exact h.cacheLast cfg

/-- The buffer is cut behind its first newline, or sent or cached as a whole. -/
theorem cutBuffer_inv (h : s.Accounts (s.ch.getD []) (s.cache.cacheLines.flatten ++ buf))
    (hc : s.cache.Ok cfg) (hr : s.reader = .busy) (hnil : s.cache.cacheLines = []) :
    Inv cfg (s.cutBuffer cfg buf) := by
  unfold State.cutBuffer
  split
  · next pos hpos =>
    obtain ⟨x, y, hbuf, -, hcut⟩ := idxOf?_some hpos
    refine ⟨?_, hc, hr, hnil⟩
    show s.Accounts (s.ch.getD []) (s.cache.cacheLines.flatten ++
      ((cutAt buf pos).1 ++ (cutAt buf pos).2 ++ s.reader.hand))
    rw [hcut, hr, show Reader.busy.hand = [] from rfl, List.append_nil]
    simpa [hbuf] using h
  · split
    · refine ⟨?_, hc, hr, hnil⟩
      show State.Accounts _ _ (s.cache.cacheLines.flatten ++ (buf ++ [] ++ s.reader.hand))
      rw [hr, show Reader.busy.hand = [] from rfl, List.append_nil, List.append_nil]
      exact h
    · exact return_inv (State.Accounts.cacheLast cfg h) (hc.cacheOutput buf)

theorem resendBuffer_inv {received buf remaining : Bytes}
    (h : s.Accounts received (buf ++ remaining)) (hc : s.cache.Ok cfg)
    (hnil : s.cache.cacheLines = []) :
    Inv cfg (s.resendBuffer cfg (received ++ buf) remaining) := by
  have hd := hc.owed hnil
  have hflat : ∀ b, b = s.cache.cacheLines.flatten ++ b := by
    intro b
    rw [hnil]
    rfl
  unfold State.resendBuffer
  split
  · next hno =>
    have hboth := idxOf?_none hno
    have hsent : s.Accounts (received ++ buf) remaining :=
      h.extend hd (fun hm => hboth (List.mem_append_left buf hm))
    rw [hflat remaining] at hsent
    split <;> exact finish_inv hsent hc
  · next pos hpos =>
    obtain ⟨x, y, heq, hx, hcut⟩ := idxOf?_some hpos
    have hsent := h.resend hd hx heq
    rw [hflat (y ++ remaining)] at hsent
    simp only [hcut]
    split
    · next hy =>
      rw [hy] at hsent
      exact finish_inv hsent hc
    · exact finish_inv (State.Accounts.cacheBuf hsent) (hc.cacheOutput y)

/-! ## `flushOutput` -/

/-- The account of a flush: nothing in the hands of its caller. -/
theorem Inv.flusher (h : Inv cfg s) (hpc : s.pc = pc) (hhand : pc.hand = [])
    (hreceived : pc.received = none) :
    s.Accounts (s.ch.getD []) ((s.cache.cacheLines.drop pc.passed).flatten ++ s.reader.hand) := by
  have hacc := h.accounts
  rw [State.front, State.back, State.stillCached, hpc, hhand, hreceived] at hacc
  exact hacc

theorem State.Accounts.setLines {front back : Bytes} (h : s.Accounts front back)
    (cacheLines : List Bytes) : (s.setLines cacheLines).Accounts front back := by
  obtain ⟨u, hsound, howes⟩ := h
  exact ⟨u, hsound, howes.lines, howes.bytes⟩

theorem leave_inv (caller : Caller)
    (h : s.Accounts (s.ch.getD []) (s.cache.cacheLines.flatten ++ s.reader.hand))
    (hc : s.cache.Ok cfg) (hr : caller.Holds s.reader) : Inv cfg (s.leave caller) := by
  match caller with
  | .onReconnected => exact ⟨h, hc, trivial⟩
  | .handleBuffer =>
    have hbusy : s.reader = .busy := hr
    rw [hbusy] at h
    exact ⟨h, hc, trivial⟩
  | .handleError => exact ⟨h, hc, hr⟩

/-- The round of the warning. -/
theorem flushWarning_inv (h : Inv cfg s) (hpc : s.pc = .flushAt caller 0) :
    Inv cfg (s.flushRound caller 0) := by
  obtain ⟨hr, hne, -⟩ := h.placeAt hpc
  by_cases hzero : s.cache.discardLines = 0
  · rw [State.flushRound, if_pos hzero]
    exact goto_inv h hpc rfl rfl rfl ⟨hr, hne, fun _ => hzero⟩
  · rw [State.flushRound, if_neg hzero]
    match hch : s.ch with
    | none =>
      obtain ⟨u, hsound, howes⟩ := h.flusher hpc rfl rfl
      rw [hch] at hsound
      -- the warning takes the place of the lines not yet reported
      have hu : u ≠ [] := fun hnil => hzero (by rw [howes.lines, hnil]; rfl)
      have hwarned := hsound.warn rfl hu h.cache.tmux (warningEnd_newlineOnlyLast s.cache.cacheLines)
      rw [← howes.lines, ← howes.bytes] at hwarned
      exact ⟨⟨[], hwarned, rfl, rfl⟩, ⟨h.cache.lines, h.cache.tmux, h.cache.bound, fun _ => rfl⟩,
        hr, hne, fun _ => rfl⟩
    | some b =>
      exact goto_inv h hpc rfl rfl rfl
        ⟨hr, Nat.zero_le _, hne, fun hpos => absurd hpos (by decide)⟩

/-- The round of a cached line. -/
theorem flushLine_inv (h : Inv cfg s) (hpc : s.pc = .flushAt caller (i + 1)) :
    Inv cfg (s.flushRound caller (i + 1)) := by
  obtain ⟨hr, hne, hwarned⟩ := h.placeAt hpc
  have hd : s.cache.discardLines = 0 := hwarned (Nat.succ_pos i)
  have hacc := h.flusher hpc rfl rfl
  rw [State.flushRound]
  match hi : s.cache.cacheLines[i]? with
  | none =>
    -- all lines are passed
    have hall : s.cache.cacheLines.drop i = [] := List.drop_eq_nil_of_le (List.getElem?_eq_none_iff.mp hi)
    have hleft : s.Accounts (s.ch.getD []) ([] ++ s.reader.hand) := by
      simpa [Pc.passed, hall] using hacc
    exact leave_inv caller (hleft.setLines [])
      ⟨by simp [State.flushedAll, State.setLines], h.cache.tmux, Nat.zero_le _, fun _ => hd⟩ hr
  | some line =>
    obtain ⟨hlt, hget⟩ := List.getElem?_eq_some_iff.mp hi
    have hback : (s.cache.cacheLines.drop i).flatten ++ s.reader.hand =
        line ++ ((s.cache.cacheLines.drop (i + 1)).flatten ++ s.reader.hand) := by
      rw [List.drop_eq_getElem_cons hlt, hget, List.flatten_cons, List.append_assoc]
    have hline : IsLine line := h.cache.lines line (hget ▸ List.getElem_mem hlt)
    obtain ⟨u, hsound, howes⟩ := hacc
    have hu : u = [] := howes.eq_nil hd
    simp only
    split
    · next hgone =>
      -- only requests: the line leaves the back, and the front stays
      exact ⟨⟨u, hsound.flush_gone hu hgone hback, howes⟩, h.cache, hr, hne, fun _ => hd⟩
    · match hch : s.ch with
      | none =>
        rw [hch] at hsound
        exact ⟨⟨u, hsound.flush rfl hu hline.newline hback, howes⟩, h.cache, hr, hne, fun _ => hd⟩
      | some b => exact goto_inv h hpc rfl rfl rfl ⟨hr, hlt, hne, fun _ => hd⟩

/-- A flush that stops in front of a line leaves that line in the cache. -/
theorem drop_passed_ne_nil {lines : List Bytes} (hle : i ≤ lines.length) (hne : lines ≠ []) :
    lines.drop (i - 1) ≠ [] := by
  have hlen := List.length_pos_of_ne_nil hne
  intro hnil
  have hall := List.drop_eq_nil_iff.mp hnil
  omega

/-! ## The steps of the mutex holder -/

section Steps

variable (h : Inv cfg s) (hs' : s.advance cfg = some s')
include h hs'

theorem handle_inv (hpc : s.pc = .handle buf) : Inv cfg s' := by
  have hr : s.reader = .busy := h.placeAt hpc
  simp only [State.advance, hpc, Option.some.injEq] at hs'
  subst hs'
  split
  · exact goto_inv h hpc rfl rfl rfl hr
  · exact handleRest_inv (h.handler hpc hr rfl) h.cache hr

theorem handleKeep_inv (hpc : s.pc = .handleKeep buf) : Inv cfg s' := by
  have hr : s.reader = .busy := h.placeAt hpc
  have hacc := h.handler hpc hr rfl
  simp only [State.advance, hpc, Option.some.injEq] at hs'
  subst hs'
  split
  · exact handleRest_inv hacc h.cache hr
  · exact return_inv (hacc.cacheLast cfg) (h.cache.cacheOutput buf)

theorem direct_inv (hpc : s.pc = .direct buf) : Inv cfg s' := by
  have hplace : s.reader = .busy ∧ s.cache.cacheLines = [] := h.placeAt hpc
  simp only [State.advance, hpc, Option.some.injEq] at hs'
  subst hs'
  split
  · exact goto_inv h hpc rfl rfl rfl hplace
  · exact goto_inv h hpc (List.append_nil buf) rfl rfl hplace

theorem directKeep_inv (hpc : s.pc = .directKeep buf) : Inv cfg s' := by
  have hplace : s.reader = .busy ∧ s.cache.cacheLines = [] := h.placeAt hpc
  simp only [State.advance, hpc, Option.some.injEq] at hs'
  subst hs'
  split
  · exact goto_inv h hpc (List.append_nil buf) rfl rfl hplace
  · exact cutBuffer_inv (h.handler hpc hplace.1 rfl) h.cache hplace.1 hplace.2

theorem send_inv (hpc : s.pc = .send buf remaining counted) : Inv cfg s' := by
  have hplace : s.reader = .busy ∧ s.cache.cacheLines = [] := h.placeAt hpc
  match hch : s.ch with
  | none =>
    simp only [State.advance, hpc, hch, Option.some.injEq] at hs'
    subst hs'
    have hacc : s.Accounts [] (buf ++ remaining) := by
      simpa [hch, hplace.2, Pc.received, Pc.hand] using h.handler hpc hplace.1 rfl
    have hsent : s.Accounts buf (s.cache.cacheLines.flatten ++ remaining) := by
      rw [hplace.2]
      exact hacc.extend (h.cache.owed hplace.2) List.not_mem_nil
    exact finish_inv (s := s.handOver buf) hsent h.cache
  | some b =>
    simp only [State.advance, hpc, hch, Option.some.injEq] at hs'
    subst hs'
    exact goto_inv h hpc rfl rfl rfl hplace

theorem full_inv (hpc : s.pc = .full buf remaining counted) : Inv cfg s' := by
  have hplace : s.reader = .busy ∧ s.cache.cacheLines = [] := h.placeAt hpc
  simp only [State.advance, hpc, Option.some.injEq] at hs'
  subst hs'
  split <;> exact goto_inv h hpc rfl rfl rfl hplace

theorem fullKeep_inv (hpc : s.pc = .fullKeep buf remaining counted) : Inv cfg s' := by
  have hplace : s.reader = .busy ∧ s.cache.cacheLines = [] := h.placeAt hpc
  simp only [State.advance, hpc, Option.some.injEq] at hs'
  subst hs'
  split <;> exact goto_inv h hpc rfl rfl rfl hplace

theorem waitReconnected_inv (hpc : s.pc = .waitReconnected buf remaining counted) : Inv cfg s' := by
  have hplace : s.reader = .busy ∧ s.cache.cacheLines = [] := h.placeAt hpc
  simp only [State.advance, hpc, Option.ite_none_left_eq_some, Option.some.injEq] at hs'
  obtain ⟨-, rfl⟩ := hs'
  exact goto_inv h hpc rfl rfl rfl hplace

/-- Receiving from the channel moves its bytes into the hands of the reader, still in front. -/
theorem drain_inv (hpc : s.pc = .drain buf remaining counted) : Inv cfg s' := by
  have hplace : s.reader = .busy ∧ s.cache.cacheLines = [] := h.placeAt hpc
  have hacc := h.accounts
  rw [State.front, State.back, State.stillCached, hpc] at hacc
  simp only [State.advance, hpc, Option.some.injEq] at hs'
  subst hs'
  exact ⟨hacc, h.cache, hplace.1, hplace.2, rfl⟩

theorem resend_inv {received buf remaining : Bytes} (hpc : s.pc = .resend received buf remaining) :
    Inv cfg s' := by
  have hplace : s.reader = .busy ∧ s.cache.cacheLines = [] ∧ s.ch = none := h.placeAt hpc
  have hacc := h.handler hpc hplace.1 rfl
  simp only [State.advance, hpc, hplace.2.2, Option.some.injEq] at hs'
  subst hs'
  rw [hplace.2.1] at hacc
  exact resendBuffer_inv hacc h.cache hplace.2.1

theorem flush_inv (hpc : s.pc = .flush caller) : Inv cfg s' := by
  have hr : caller.Holds s.reader := h.placeAt hpc
  simp only [State.advance, hpc, Option.some.injEq] at hs'
  subst hs'
  split
  · exact leave_inv caller (h.flusher hpc rfl rfl) h.cache hr
  · next hgo =>
    exact goto_inv h hpc rfl rfl rfl ⟨hr, fun hnil => hgo (.inl hnil), fun hpos => absurd hpos (by decide)⟩

theorem flushFull_inv (hpc : s.pc = .flushFull caller i) : Inv cfg s' := by
  obtain ⟨hr, hle, hne, hd⟩ := h.placeAt hpc
  simp only [State.advance, hpc, Option.some.injEq] at hs'
  subst hs'
  split
  · -- the lines that were passed leave the cache
    have hbound := h.cache.bound
    refine leave_inv caller ((h.flusher hpc rfl rfl).setLines _) ⟨?_, h.cache.tmux, ?_, ?_⟩ hr
    · exact fun l hl => h.cache.lines l (List.mem_of_mem_drop hl)
    · show (s.cache.cacheLines.drop (i - 1)).length ≤ _
      rw [List.length_drop]
      omega
    · exact fun hnil => absurd hnil (drop_passed_ne_nil hle hne)
  · exact goto_inv h hpc rfl rfl rfl ⟨hr, hne, hd⟩

theorem flushAt_inv (hpc : s.pc = .flushAt caller i) : Inv cfg s' := by
  simp only [State.advance, hpc, Option.some.injEq] at hs'
  subst hs'
  match i with
  | 0 => exact flushWarning_inv h hpc
  | i + 1 => exact flushLine_inv h hpc

theorem lastFlush_inv (hpc : s.pc = .lastFlush) : Inv cfg s' := by
  have hr : s.reader = .busy := h.placeAt hpc
  simp only [State.advance, hpc, Option.some.injEq] at hs'
  subst hs'
  split
  · have hacc := h.flusher hpc rfl rfl
    rw [hr] at hacc
    exact ⟨hacc, h.cache, trivial⟩
  · split <;> exact goto_inv h hpc rfl rfl rfl hr

theorem lastWait_inv (hpc : s.pc = .lastWait) : Inv cfg s' := by
  have hr : s.reader = .busy := h.placeAt hpc
  simp only [State.advance, hpc, Option.ite_none_left_eq_some, Option.some.injEq] at hs'
  obtain ⟨-, rfl⟩ := hs'
  exact goto_inv h hpc rfl rfl rfl hr

end Steps

/-- **One step of the mutex holder** keeps the invariant. -/
theorem advance_inv (h : Inv cfg s) (hs' : s.advance cfg = some s') : Inv cfg s' := by
  match hpc : s.pc with
  | .free => simp [State.advance, hpc] at hs'
  | .handle _ => exact handle_inv h hs' hpc
  | .handleKeep _ => exact handleKeep_inv h hs' hpc
  | .direct _ => exact direct_inv h hs' hpc
  | .directKeep _ => exact directKeep_inv h hs' hpc
  | .send .. => exact send_inv h hs' hpc
  | .full .. => exact full_inv h hs' hpc
  | .fullKeep .. => exact fullKeep_inv h hs' hpc
  | .waitReconnected .. => exact waitReconnected_inv h hs' hpc
  | .drain .. => exact drain_inv h hs' hpc
  | .resend .. => exact resend_inv h hs' hpc
  | .flush _ => exact flush_inv h hs' hpc
  | .flushAt .. => exact flushAt_inv h hs' hpc
  | .flushFull .. => exact flushFull_inv h hs' hpc
  | .lastFlush => exact lastFlush_inv h hs' hpc
  | .lastWait => exact lastWait_inv h hs' hpc

/-! ## Whole runs -/

/-- A reader without the mutex may move on by itself. -/
theorem Pc.Place.of_reader {ch : Option Bytes} {reader : Reader} (h : pc.Place c ch reader)
    (hr : reader ≠ .busy) (reader' : Reader) : pc.Place c ch reader' := by
  have hholds : ∀ caller : Caller, caller.Holds reader → caller.Holds reader' := by
    intro caller hc
    match caller with
    | .onReconnected => trivial
    | .handleBuffer => exact absurd hc hr
    | .handleError => exact absurd hc hr
  match pc with
  | .free => trivial
  | .handle _ | .handleKeep _ | .lastFlush | .lastWait => exact absurd h hr
  | .direct _ | .directKeep _ | .send .. | .full .. | .fullKeep .. | .waitReconnected .. | .drain ..
  | .resend .. => exact absurd h.1 hr
  | .flush caller => exact hholds caller h
  | .flushAt caller _ => exact ⟨hholds caller h.1, h.2⟩
  | .flushFull caller _ => exact ⟨hholds caller h.1, h.2⟩

/-- Without the mutex the reader has nothing in another one's hands. -/
theorem Pc.Place.of_waiting {ch : Option Bytes} {reader : Reader} (h : pc.Place c ch reader)
    (hr : reader = .waiting) : pc.hand = [] ∧ pc.received = none := by
  subst hr
  match pc with
  | .free | .lastFlush | .lastWait | .flush _ | .flushAt .. | .flushFull .. => exact ⟨rfl, rfl⟩
  | .handle _ | .handleKeep _ => exact absurd h (by simp [Pc.Place])
  | .direct _ | .directKeep _ | .send .. | .full .. | .fullKeep .. | .waitReconnected .. | .drain ..
  | .resend .. => exact absurd h.1 (by simp)

/-- The writer may take from the channel; a reader that has emptied it is not disturbed. -/
theorem Pc.Place.of_take {reader : Reader} (h : pc.Place c (some buf) reader) :
    pc.Place c none reader ∧ pc.received = none := by
  match pc with
  | .resend .. => exact absurd h.2.2 (by simp)
  | .free | .handle _ | .handleKeep _ | .lastFlush | .lastWait | .direct _ | .directKeep _ | .send ..
  | .full .. | .fullKeep .. | .waitReconnected .. | .drain .. | .flush _ | .flushAt .. | .flushFull .. =>
    exact ⟨h, rfl⟩

theorem read_inv (h : Inv cfg s) (hr : s.reader = .waiting) :
    Inv cfg { s with reader := .read buf, input := s.input ++ buf } := by
  refine ⟨?_, h.cache, h.place.of_reader (by simp [hr]) _⟩
  obtain ⟨u, hsound, howes⟩ := h.accounts
  have hback : s.back ++ buf = s.stillCached.flatten ++ (s.pc.hand ++ buf) := by
    simp [State.back, hr, Reader.hand]
  have hread := hsound.read buf
  simp only [hback] at hread
  exact ⟨u, hread, howes⟩

theorem lock_inv (h : Inv cfg s) (hpc : s.pc = .free) (hs' : s.lock = some s') : Inv cfg s' := by
  have hacc := h.flusher hpc rfl rfl
  match hr : s.reader with
  | .waiting | .busy | .returned => simp [State.lock, hr] at hs'
  | .read buf =>
    simp only [State.lock, hr, Option.some.injEq] at hs'
    subst hs'
    rw [hr] at hacc
    -- the buffer moves from the hands of the reader to those of the mutex holder
    have hhandle : s.Accounts (s.ch.getD []) (s.cache.cacheLines.flatten ++ (buf ++ [])) := by
      rw [List.append_nil]
      exact hacc
    exact ⟨hhandle, h.cache, rfl⟩
  | .failed =>
    simp only [State.lock, hr, Option.some.injEq] at hs'
    subst hs'
    rw [hr] at hacc
    exact ⟨hacc, h.cache, rfl⟩
  | .closing =>
    simp only [State.lock, hr, Option.some.injEq] at hs'
    subst hs'
    have hclosing := h.accounts
    rw [State.back, hr] at hclosing
    exact ⟨hclosing, h.cache, h.place.of_reader (by simp [hr]) _⟩

theorem take_inv (h : Inv cfg s) (hch : s.ch = some buf) :
    Inv cfg { s with ch := none, taken := s.taken ++ buf } := by
  have hplace : s.pc.Place s.cache (some buf) s.reader := hch ▸ h.place
  obtain ⟨hplace', hreceived⟩ := hplace.of_take
  refine ⟨?_, h.cache, hplace'⟩
  obtain ⟨u, hsound, howes⟩ := h.accounts
  rw [State.front, hreceived, hch] at hsound
  show State.Accounts _ (s.pc.received.getD []) s.back
  rw [hreceived]
  exact ⟨u, hsound.take, howes⟩

theorem next_inv {l : Label} (h : Inv cfg s) (hs' : next cfg s l = some s') : Inv cfg s' := by
  match l with
  | .read buf =>
    simp only [next, Option.ite_none_right_eq_some, Option.some.injEq] at hs'
    obtain ⟨⟨hr, -⟩, rfl⟩ := hs'
    exact read_inv h hr
  | .eof =>
    simp only [next, Option.ite_none_right_eq_some, Option.some.injEq] at hs'
    obtain ⟨hr, rfl⟩ := hs'
    have hacc := h.accounts
    rw [State.back, hr] at hacc
    exact ⟨hacc, h.cache, h.place.of_reader (by simp [hr]) _⟩
  | .lock =>
    simp only [next, Option.ite_none_right_eq_some] at hs'
    exact lock_inv h hs'.1 hs'.2
  | .callback =>
    simp only [next, Option.ite_none_right_eq_some, Option.some.injEq] at hs'
    obtain ⟨hpc, rfl⟩ := hs'
    split
    · exact h
    · exact goto_inv h hpc rfl rfl rfl trivial
  | .advance => exact advance_inv h hs'
  | .take =>
    obtain ⟨buf, hch, rfl⟩ := Option.map_eq_some_iff.mp hs'
    exact take_inv h hch
  | .timeout =>
    simp only [next, Option.ite_none_left_eq_some, Option.some.injEq] at hs'
    obtain ⟨-, rfl⟩ := hs'
    exact ⟨h.accounts, h.cache, h.place⟩
  | .reconnect =>
    simp only [next, Option.ite_none_right_eq_some, Option.some.injEq] at hs'
    obtain ⟨-, rfl⟩ := hs'
    exact ⟨h.accounts, h.cache, h.place⟩
  | .keepPending keep =>
    simp only [next, Option.some.injEq] at hs'
    subst hs'
    exact ⟨h.accounts, h.cache, h.place⟩

theorem start_inv (cfg : Config) : Inv cfg .start where
  accounts := ⟨[], Ledger.Sound.start, rfl, rfl⟩
  cache := ⟨by simp [State.start, Cache.empty], by decide, Nat.zero_le _, fun _ => rfl⟩
  place := trivial

/-- The ledger of `forwardOutput` is sound in every state of every run. -/
theorem forwardOutput_inv (hs : (forwardOutput cfg).Reachable s) : Inv cfg s :=
  System.invariant_ofStep (start_inv cfg) (fun _ _ _ => next_inv) hs

/-- **No output is lost, duplicated or reordered.**  Whenever the reader waits for program
    output, what the writer took, then what is in the channel, then what is still cached is
    what was read, in order, except that

    * flushed lines, and no others, have lost their cursor position requests,
    * the dropped lines are missing as a whole, those no warning has reported right before
      the cached ones,
    * a warning stands in the place of every other group of dropped lines.

    The counts of the warnings and those not yet reported are those of the dropped lines, and
    the cache is within its limit. -/
theorem output_delivered (hs : (forwardOutput cfg).Reachable s) (hwait : s.reader = .waiting) :
    ∃ (ls unreported : List Bytes) (delivered dropped kept : Origin),
      Delivered delivered ls s.reported (s.taken ++ s.ch.getD []) ∧
      Dropped dropped unreported ∧
      Passed kept s.stillCached.flatten ∧
      delivered + dropped + kept = ⟨s.input, s.flushed⟩ ∧
      ls ++ unreported = s.cache.dropped ∧
      (s.reported.map Prod.fst).sum + s.cache.discardLines = s.cache.dropped.length ∧
      (s.reported.map Prod.snd).sum + s.cache.discardBytes = s.cache.dropped.flatten.length ∧
      (s.cache.cacheLines.length : Int) ≤ max (cfg.maxPendingOutputLines : Int) (2 * cfg.rows) := by
  have h := forwardOutput_inv hs
  have hhand : s.pc.hand = [] ∧ s.pc.received = none := h.place.of_waiting hwait
  obtain ⟨u, hsound, howes⟩ := h.accounts
  obtain ⟨ls, o₁, o₂, o₃, hdelivered, hdropped, hkept, hlines, htotal⟩ := hsound.accounts
  simp only [State.front, State.back, hhand.1, hhand.2, hwait] at hdelivered hkept
  obtain ⟨hcount, hbytes⟩ := hdelivered.counts
  refine ⟨ls, u, o₁, o₂, o₃, hdelivered, hdropped, by simpa [Reader.hand] using hkept, htotal, hlines,
    ?_, ?_, ?_⟩
  · rw [hcount, howes.lines, ← List.length_append]
    exact congrArg List.length hlines
  · rw [hbytes, howes.bytes, ← List.length_append, ← List.flatten_append]
    exact congrArg (·.flatten.length) hlines
  · have hbound := h.cache.bound
    unfold Config.maxLines at hbound
    omega

/-- A run that drops a line and flushes the rest: the output `a`, `b`, `c`, each with a newline,
    is read during a timeout, and the client comes back. -/
def dropsLine : List Label :=
  [.timeout, .read [97, 10, 98, 10, 99, 10], .lock, .advance, .advance, .advance, .advance,
    .reconnect, .callback, .advance, .take, .advance, .take, .advance, .advance]

theorem output_delivered_after_drop :
    ∃ s, (forwardOutput oneLineCache).Reachable s ∧ s.reader = .waiting ∧
      s.cache.dropped = [[98, 10]] ∧ s.reported = [(1, 2)] ∧ s.ch = some [99, 10] ∧
      s.taken = [97, 10] ++ ascii ("\r\x1b[0;33mWarning: tsshd discarded 1 lines 2 bytes of " ++
        "output during client disconnection at this point!\x1b[0m\x1b[K\r\n") ∧
      ∃ (ls unreported : List Bytes) (delivered dropped kept : Origin),
        Delivered delivered ls s.reported (s.taken ++ s.ch.getD []) ∧
        Dropped dropped unreported ∧
        Passed kept s.stillCached.flatten ∧
        delivered + dropped + kept = ⟨s.input, s.flushed⟩ ∧
        ls ++ unreported = s.cache.dropped ∧
        (s.reported.map Prod.fst).sum + s.cache.discardLines = s.cache.dropped.length ∧
        (s.reported.map Prod.snd).sum + s.cache.discardBytes = s.cache.dropped.flatten.length ∧
        (s.cache.cacheLines.length : Int) ≤ max (1 : Int) (2 * 0) := by
  obtain ⟨s, hrun, hwait, hdropped, hreported, hch, htaken⟩ :
      ∃ s, runLabels (next oneLineCache) .start dropsLine = some s ∧ s.reader = .waiting ∧
        s.cache.dropped = [[98, 10]] ∧ s.reported = [(1, 2)] ∧ s.ch = some [99, 10] ∧
        s.taken = [97, 10] ++ ascii ("\r\x1b[0;33mWarning: tsshd discarded 1 lines 2 bytes of " ++
          "output during client disconnection at this point!\x1b[0m\x1b[K\r\n") :=
    exists_of_runLabels (by decide +kernel)
  have hs := forwardOutput_reachable hrun
  exact ⟨s, hs, hwait, hdropped, hreported, hch, htaken, output_delivered hs hwait⟩

end Output
