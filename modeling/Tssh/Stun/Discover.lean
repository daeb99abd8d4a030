import Tssh.Stun.Response

/-! # Discovery of the Public Address

    The loop of `StunDiscover` makes at most three attempts within six seconds.  An attempt
    sends the request, waits for **one** datagram, at most two seconds, and parses it.  A
    datagram of someone else ends the attempt like a timeout does, so unrelated traffic uses
    up the attempts.

    Time is counted in milliseconds from the start of the loop.  The datagrams arrive at
    given times and wait in the socket until they are read; what the code computes takes no
    time.

    * `discoverLoop_arrival`: what the loop does with the next datagram, after the timeouts in
      front of it.
    * `stunDiscover_iff`: the first valid response is returned exactly if fewer than three reads
      end before it is read, each with a datagram or with two seconds of silence.
-/

open Go

namespace Stun

/-! ## The code -/

/-- Datagrams with the times at which they reach the socket. -/
abbrev Arrivals := List (Nat × Bytes)

inductive DiscoverError where
  /-- `send stun request: %w`. -/
  | send
  /-- `no stun response from [%s]:%d`. -/
  | noResponse
  /-- The parser would have stopped the program. -/
  | fault (f : Fault)
  deriving DecidableEq, Repr

/-- `ReadFrom` into the buffer of 2048 bytes, with a read deadline in two seconds: the time when it
    returns, the received bytes, and the datagrams that are left. -/
def readFrom (now : Nat) : Arrivals → Nat × Option Bytes × Arrivals
  | [] => (now + 2000, none, [])
  | (t, d) :: rest =>
    if t < now + 2000 then (max now t, some (d.take 2048), rest)
    else (now + 2000, none, (t, d) :: rest)

/-- The loop with the attempts that are left.  `writeFails` says which writes fail. -/
def discoverLoop (writeFails : Nat → Bool) (txid : Bytes) :
    Nat → Nat → Arrivals → Except DiscoverError Address
  | 0, _, _ => .error .noResponse
  | left + 1, now, arrivals =>
    -- attempt < 3 && time.Now().Before(deadline)
    if now < 6000 then
      if writeFails (2 - left) then .error .send
      else
        match readFrom now arrivals with
        | (now, none, rest) => discoverLoop writeFails txid left now rest
        | (now, some data, rest) =>
          match parseResponse txid data with
          | .error f => .error (.fault f)
          | .ok (.address addr) => .ok addr
          | .ok _ => discoverLoop writeFails txid left now rest
    else .error .noResponse

def stunDiscover (writeFails : Nat → Bool) (txid : Bytes) (arrivals : Arrivals) :
    Except DiscoverError Address :=
  discoverLoop writeFails txid 3 0 arrivals

/-! ## One datagram -/

/-- The datagram is a valid response with this address. -/
def Answers (txid d : Bytes) (addr : Address) : Prop :=
  parseResponse txid (d.take 2048) = .ok (.address addr)

section

variable {writeFails : Nat → Bool} (hwrite : ∀ k, writeFails k = false) {txid : Bytes}

include hwrite

/-- The reads before a datagram end with timeouts.  By induction on the attempts that are left:
    either they are used up by two-second silences, or the datagram is read at its time. -/
theorem discoverLoop_arrival (left now t : Nat) (d : Bytes) (rest : Arrivals) (hnow : now ≤ t)
    (ht : t < 6000) :
    discoverLoop writeFails txid left now ((t, d) :: rest) =
      if (t - now) / 2000 < left then
        match parseResponse txid (d.take 2048) with
        | .error f => .error (.fault f)
        | .ok (.address addr) => .ok addr
        | .ok _ => discoverLoop writeFails txid (left - (t - now) / 2000 - 1) t rest
      else .error .noResponse := by
  induction left generalizing now with
  | zero => rfl
  | succ left ih =>
    have hbefore : now < 6000 := by omega
    simp only [discoverLoop, if_pos hbefore, hwrite, Bool.false_eq_true, if_false, readFrom]
    by_cases hread : t < now + 2000
    · -- the datagram comes within the two seconds
      have hzero : (t - now) / 2000 = 0 := Nat.div_eq_of_lt (by omega)
      rw [if_pos hread, hzero, if_pos (Nat.succ_pos left), Nat.max_eq_right hnow]
      rfl
    · -- a timeout; the next attempt starts two seconds later
      have hstep : (t - now) / 2000 = (t - (now + 2000)) / 2000 + 1 := by omega
      rw [if_neg hread, hstep]
      simp only
      rw [ih (now + 2000) (by omega)]
      have hiff : (t - (now + 2000)) / 2000 < left ↔ (t - (now + 2000)) / 2000 + 1 < left + 1 := by
        omega
      have hleft : left - (t - (now + 2000)) / 2000 - 1 =
          left + 1 - ((t - (now + 2000)) / 2000 + 1) - 1 := by
        omega
      simp only [hiff, hleft]

/-! ## Reads before the response -/

omit hwrite

/-- The number of reads that end before a datagram at time `t` is read, from `now` on: one for each
    datagram in front of it, and one for each two seconds of silence. -/
def readsBefore (now : Nat) : Arrivals → Nat → Nat
  | [], t => (t - now) / 2000
  | (t', _) :: before, t => (t' - now) / 2000 + 1 + readsBefore t' before t

include hwrite

/-- **Run lemma.**  By induction on the datagrams in front of the response, each of which uses one
    attempt. -/
theorem discoverLoop_iff (left now t : Nat) {d : Bytes} {addr : Address} {before : Arrivals}
    (after : Arrivals) (hsorted : (now :: (before.map Prod.fst ++ [t])).Pairwise (· ≤ ·))
    (hdeadline : ∀ x ∈ before, x.1 < 6000) (ht : t < 6000)
    (hbefore : ∀ x ∈ before, ∀ a, ¬ Answers txid x.2 a) (hvalid : Answers txid d addr) :
    discoverLoop writeFails txid left now (before ++ (t, d) :: after) = .ok addr ↔
      readsBefore now before t < left := by
  induction before generalizing left now with
  | nil =>
    have hnow : now ≤ t := by simpa using hsorted
    rw [List.nil_append, discoverLoop_arrival hwrite left now t d after hnow ht, hvalid]
    by_cases hlt : (t - now) / 2000 < left
    · simp [readsBefore, hlt]
    · simp [readsBefore, hlt]
  | cons x before ih =>
    obtain ⟨t', d'⟩ := x
    have ht' : t' < 6000 := hdeadline _ List.mem_cons_self
    rw [List.pairwise_cons] at hsorted
    have hnow : now ≤ t' := hsorted.1 t' (by simp)
    have hnext := ih (left - (t' - now) / 2000 - 1) t' hsorted.2
      (fun x hx => hdeadline x (List.mem_cons_of_mem _ hx))
      (fun x hx => hbefore x (List.mem_cons_of_mem _ hx))
    rw [List.cons_append, discoverLoop_arrival hwrite left now t' d' _ hnow ht', readsBefore]
    by_cases hlt : (t' - now) / 2000 < left
    · rw [if_pos hlt]
      obtain ⟨o, ho⟩ := parseResponse_ok txid (d'.take 2048)
      have hother := hbefore (t', d') List.mem_cons_self
      cases o with
      | address a => exact absurd ho (hother a)
      | unrelated => rw [ho, hnext]; omega
      | noAddress => rw [ho, hnext]; omega
    · rw [if_neg hlt]
      constructor
      · intro h
        cases h
      · intro h
        omega

end

/-- **Discovery.**  Within the deadline and without failing writes the address of the first valid
    response is returned exactly if fewer than three reads end before it is read. -/
theorem stunDiscover_iff (writeFails : Nat → Bool) (txid : Bytes) (before : Arrivals) (t : Nat)
    (d : Bytes) (after : Arrivals) (addr : Address) (hwrite : ∀ k, writeFails k = false)
    (hsorted : ((before ++ (t, d) :: after).map Prod.fst).Pairwise (· ≤ ·))
    (hdeadline : ∀ x ∈ before ++ (t, d) :: after, x.1 < 6000)
    (hbefore : ∀ x ∈ before, ∀ a, ¬ Answers txid x.2 a) (hvalid : Answers txid d addr) :
    stunDiscover writeFails txid (before ++ (t, d) :: after) = .ok addr ↔
      readsBefore 0 before t < 3 := by
  have hinitial : (before.map Prod.fst ++ [t]).Pairwise (· ≤ ·) := by
    refine hsorted.sublist ?_
    rw [List.map_append, List.map_cons]
    exact List.Sublist.append_left (List.Sublist.cons_cons _ (List.nil_sublist _)) _
  have hstart : (0 :: (before.map Prod.fst ++ [t])).Pairwise (· ≤ ·) :=
    List.pairwise_cons.mpr ⟨fun _ _ => Nat.zero_le _, hinitial⟩
  exact discoverLoop_iff hwrite 3 0 t after hstart
    (fun x hx => hdeadline x (List.mem_append_left _ hx))
    (hdeadline (t, d) (List.mem_append_right _ List.mem_cons_self)) hbefore hvalid

/-- A response with the address 1.2.3.4 and port 80. -/
def quickResponse : Bytes :=
  response (List.replicate 12 7)
    [0x00, 0x20, 0x00, 0x08, 0x00, 0x01, 0x21, 0x42, 0x20, 0x10, 0xA7, 0x46]

/-- Three short datagrams in front of a valid response, all within a second: the response is not
    read. -/
theorem three_datagrams_before_response :
    Answers (List.replicate 12 7) quickResponse ("1.2.3.4", 80) ∧
    stunDiscover (fun _ => false) (List.replicate 12 7)
      ([(100, [0]), (200, [0]), (300, [0])] ++ (400, quickResponse) :: []) =
        .error .noResponse := by
  exact ⟨rfl, rfl⟩

theorem two_datagrams_before_response :
    stunDiscover (fun _ => false) (List.replicate 12 7)
      ([(100, [0]), (200, [0])] ++ (400, quickResponse) :: []) = .ok ("1.2.3.4", 80) := by
  refine (stunDiscover_iff (fun _ => false) (List.replicate 12 7) [(100, [0]), (200, [0])] 400
    quickResponse [] ("1.2.3.4", 80) (fun _ => rfl) (by decide) (by decide) ?_ rfl).mpr (by decide)
  intro x hx a
  -- both datagrams are too short
  have hdata : x.2 = [0] := by
    simp only [List.mem_cons, List.not_mem_nil, or_false] at hx
    rcases hx with rfl | rfl <;> rfl
  rw [Answers, hdata]
  intro h
  cases h

end Stun
