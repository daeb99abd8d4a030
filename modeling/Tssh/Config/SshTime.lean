import Tssh.Notif.TmuxCommands
import Mathlib.Data.List.TakeWhile
import Mathlib.Algebra.Ring.Nat

/-! # Times of the Configuration

    `convertSshTime` in `tssh/comm.go` reads a time such as `1h30m` in seconds.  The loop cuts
    off the digits of a number and then a unit, which may be missing only at the end of the
    text, and adds up with 32-bit numbers.  Both overflow tests are made **before** the
    operation they guard: the product by a truncating division, the sum by a subtraction
    from the maximum.

    * `addTerm_eq_ok`: one round succeeds exactly if the sum is a 32-bit number, and then it
      is the sum.
    * `convertSshTime_exact`: the function succeeds exactly on the written times
      (`Terms`) whose numbers and whose sum are 32-bit numbers, with that sum.
-/

open Go
open TmuxInput (parseUint)

namespace SshTime

/-! ## The code -/

inductive TimeError where
  /-- `empty time string`. -/
  | empty
  /-- `invalid char '%c' at position %d`. -/
  | invalidChar (c : UInt8) (position : Nat)
  /-- `value overflow at position %d`. -/
  | valueOverflow (position : Nat)
  /-- `invalid time unit '%c'`. -/
  | invalidUnit (c : UInt8)
  /-- `time value overflow`. -/
  | timeValueOverflow
  /-- `total seconds overflow`. -/
  | totalOverflow
  deriving DecidableEq, Repr

def maxUint32 : UInt32 := 0xFFFFFFFF

def isDigit (b : UInt8) : Bool := 0x30 ≤ b && b ≤ 0x39

/-- The `switch` over the unit. -/
def multiplier (c : UInt8) : Option UInt32 :=
  if c = 0x73 ∨ c = 0x53 then some 1
  else if c = 0x6D ∨ c = 0x4D then some 60
  else if c = 0x68 ∨ c = 0x48 then some (60 * 60)
  else if c = 0x64 ∨ c = 0x44 then some (24 * 60 * 60)
  else if c = 0x77 ∨ c = 0x57 then some (7 * 24 * 60 * 60)
  else none

/-- The end of a round: both overflow tests, and the new total. -/
def addTerm (total val multiplier : UInt32) : Except TimeError UInt32 :=
  if val ≠ 0 ∧ multiplier > maxUint32 / val then .error .timeValueOverflow
  else
    let val := val * multiplier
    if total > maxUint32 - val then .error .totalOverflow
    else .ok (total + val)

/-- One round at position `i`, where `str` is the rest of the text and not empty: the digits of a
    number, the unit if there is one, and the new total. -/
def convertRound (i : Nat) (total : UInt32) (str : Bytes) :
    Except TimeError (Nat × UInt32 × Bytes) :=
  let digits := str.takeWhile isDigit
  let rest := str.dropWhile isDigit
  match digits, rest with
  | [], c :: _ => .error (.invalidChar c i)
  | _, _ =>
    match parseUint 10 32 digits with
    | none => .error (.valueOverflow i)
    | some val64 =>
      let val := UInt32.ofNat val64
      match rest with
      | [] => (addTerm total val 1).map fun total => (i + digits.length, total, [])
      | c :: rest =>
        match multiplier c with
        | none => .error (.invalidUnit c)
        | some m => (addTerm total val m).map fun total => (i + digits.length + 1, total, rest)

/-- The loop.  A round takes at least one byte, so there are at most as many rounds as
    bytes. -/
def convertLoop : Nat → Nat → UInt32 → Bytes → Except TimeError UInt32
  | _, _, total, [] => .ok total
  | 0, _, total, _ => .ok total
  | rounds + 1, i, total, c :: str =>
    match convertRound i total (c :: str) with
    | .error e => .error e
    | .ok (i, total, rest) => convertLoop rounds i total rest

def convertSshTime (str : Bytes) : Except TimeError UInt32 :=
  if str = [] then .error .empty else convertLoop str.length 0 0 str

/-! ## Written times -/

inductive TimeUnit where
  | second | minute | hour | day | week
  deriving DecidableEq, Repr

def TimeUnit.seconds : TimeUnit → Nat
  | second => 1
  | minute => 60
  | hour => 3600
  | day => 86400
  | week => 604800

/-- The letter of a unit; the capital letter is 32 below it. -/
def TimeUnit.letter : TimeUnit → UInt8
  | second => 0x73
  | minute => 0x6D
  | hour => 0x68
  | day => 0x64
  | week => 0x77

/-- A decimal number: digits, and at least one. -/
def IsNumber (ds : Bytes) : Prop := ds ≠ [] ∧ ∀ b ∈ ds, isDigit b = true

/-- The value of a decimal number. -/
def value (ds : Bytes) : Nat := ds.foldl (fun n b => n * 10 + (b.toNat - 0x30)) 0

/-- Texts that are a sequence of numbers with units, with the numbers and the seconds of their
    units.  Only the last number may have no unit; it counts seconds. -/
inductive Terms : Bytes → List (Nat × Nat) → Prop where
  | nil : Terms [] []
  | last {ds : Bytes} : IsNumber ds → Terms ds [(value ds, 1)]
  | cons {ds : Bytes} {c : UInt8} (u : TimeUnit) {str : Bytes} {ts : List (Nat × Nat)} :
      IsNumber ds → c = u.letter ∨ c = u.letter - 32 → Terms str ts →
      Terms (ds ++ c :: str) ((value ds, u.seconds) :: ts)

/-- The seconds of all terms together. -/
def sum (ts : List (Nat × Nat)) : Nat := (ts.map fun t => t.1 * t.2).sum

@[simp] theorem sum_nil : sum [] = 0 := rfl

@[simp] theorem sum_cons (t : Nat × Nat) (ts : List (Nat × Nat)) :
    sum (t :: ts) = t.1 * t.2 + sum ts := by
  simp [sum]

/-! ## Arithmetic of a round -/

/-- The test by division is the test on the product. -/
theorem le_div_iff_mul_le {val : Nat} (h : val ≠ 0) (m max : Nat) :
    m ≤ max / val ↔ val * m ≤ max := by
  rw [Nat.le_div_iff_mul_le (Nat.pos_of_ne_zero h), Nat.mul_comm]

theorem timeValueOverflow_iff (val m : UInt32) :
    (val ≠ 0 ∧ m > maxUint32 / val) ↔ 2 ^ 32 ≤ val.toNat * m.toNat := by
  have hmax : maxUint32.toNat = 2 ^ 32 - 1 := rfl
  rw [gt_iff_lt, UInt32.lt_iff_toNat_lt, UInt32.toNat_div, hmax]
  by_cases hval : val = 0
  · subst hval
    simp
  · have hne : val.toNat ≠ 0 := fun h => hval (UInt32.toNat_inj.mp h)
    have hiff := le_div_iff_mul_le hne m.toNat (2 ^ 32 - 1)
    constructor
    · rintro ⟨-, hlt⟩
      by_contra hsmall
      have := hiff.mpr (by omega)
      omega
    · intro hbig
      refine ⟨hval, ?_⟩
      by_contra hle
      have := hiff.mp (by omega)
      omega

/-- **Step lemma.**  A round gives the mathematical sum, or an error when that is no 32-bit
    number; no product and no sum wraps around. -/
theorem addTerm_eq_ok (total val m r : UInt32) :
    addTerm total val m = .ok r ↔ total.toNat + val.toNat * m.toNat = r.toNat := by
  have hr := r.toNat_lt
  have htotal := total.toNat_lt
  unfold addTerm
  by_cases hover : val ≠ 0 ∧ m > maxUint32 / val
  · rw [if_pos hover]
    rw [timeValueOverflow_iff] at hover
    constructor
    · intro h
      cases h
    · intro h
      omega
  · rw [if_neg hover]
    rw [timeValueOverflow_iff, Nat.not_le] at hover
    -- the product fits, so the 32-bit product is the product
    have hmul : (val * m).toNat = val.toNat * m.toNat := by
      rw [UInt32.toNat_mul, Nat.mod_eq_of_lt hover]
    have hsub : (maxUint32 - val * m).toNat = 2 ^ 32 - 1 - (val * m).toNat := by
      apply UInt32.toNat_sub_of_le
      rw [UInt32.le_iff_toNat_le]
      show (val * m).toNat ≤ 2 ^ 32 - 1
      omega
    have hlt : total > maxUint32 - val * m ↔ 2 ^ 32 ≤ total.toNat + val.toNat * m.toNat := by
      rw [gt_iff_lt, UInt32.lt_iff_toNat_lt, hsub, hmul]
      omega
    by_cases hsum : total > maxUint32 - val * m
    · simp only [if_pos hsum, reduceCtorEq, false_iff]
      rw [hlt] at hsum
      omega
    · simp only [if_neg hsum, Except.ok.injEq]
      rw [hlt, Nat.not_le] at hsum
      rw [← UInt32.toNat_inj, UInt32.toNat_add, hmul, Nat.mod_eq_of_lt hsum]

/-! ## Numbers and units -/

theorem multiplier_eq_some {c : UInt8} {m : UInt32} :
    multiplier c = some m ↔
      ∃ u : TimeUnit, (c = u.letter ∨ c = u.letter - 32) ∧ m.toNat = u.seconds := by
  constructor
  · intro h
    unfold multiplier at h
    split at h
    next hc => exact ⟨.second, hc, by cases h; rfl⟩
    split at h
    next hc => exact ⟨.minute, hc, by cases h; rfl⟩
    split at h
    next hc => exact ⟨.hour, hc, by cases h; rfl⟩
    split at h
    next hc => exact ⟨.day, hc, by cases h; rfl⟩
    split at h
    next hc => exact ⟨.week, hc, by cases h; rfl⟩
    cases h
  · rintro ⟨u, hc, hm⟩
    have hm' : m = UInt32.ofNat u.seconds := by
      rw [← hm, UInt32.ofNat_toNat]
    subst hm'
    cases u <;> rcases hc with rfl | rfl <;> rfl

theorem isDigit_letter {c : UInt8} {u : TimeUnit} (h : c = u.letter ∨ c = u.letter - 32) :
    isDigit c = false := by
  cases u <;> rcases h with rfl | rfl <;> rfl

theorem digit_of_isDigit {b : UInt8} (h : isDigit b = true) :
    TmuxInput.digit b = some (b.toNat - 0x30) ∧ b.toNat - 0x30 < 10 := by
  simp only [isDigit, Bool.and_eq_true, decide_eq_true_eq, UInt8.le_iff_toNat_le] at h
  obtain ⟨hlow, hhigh⟩ : 48 ≤ b.toNat ∧ b.toNat ≤ 57 := h
  constructor
  · simp [TmuxInput.digit, hlow, hhigh]
  · omega

variable {ds rest str : Bytes} {r total total' : UInt32}

theorem parseUint_number (h : IsNumber ds) :
    parseUint 10 32 ds = if value ds < 2 ^ 32 then some (value ds) else none := by
  obtain ⟨hne, hdigits⟩ := h
  have hvalue : ds.foldl (fun n b => n * 10 + (TmuxInput.digit b).getD 0) 0 = value ds := by
    apply List.foldl_ext
    intro n b hb
    rw [(digit_of_isDigit (hdigits b hb)).1, Option.getD_some]
  rw [← hvalue]
  apply TmuxInput.parseUint_digits hne
  intro b hb
  obtain ⟨hdigit, hlt⟩ := digit_of_isDigit (hdigits b hb)
  exact ⟨_, hlt, hdigit⟩

theorem parseUint_small (h : IsNumber ds) (hsmall : value ds < 2 ^ 32) :
    parseUint 10 32 ds = some (value ds) := by
  rw [parseUint_number h, if_pos hsmall]

theorem isNumber_takeWhile (h : str.takeWhile isDigit ≠ []) : IsNumber (str.takeWhile isDigit) :=
  ⟨h, fun _ hb => List.mem_takeWhile_imp hb⟩

/-- A number is cut off where it ends: at the end of the text, or before a byte that is no
    digit. -/
theorem takeWhile_number (h : IsNumber ds) (rest : Bytes)
    (hrest : ∀ c ∈ rest.head?, isDigit c = false) :
    (ds ++ rest).takeWhile isDigit = ds ∧ (ds ++ rest).dropWhile isDigit = rest := by
  rw [List.takeWhile_append_of_pos h.2, List.dropWhile_append_of_pos h.2]
  cases rest with
  | nil => simp
  | cons c rest =>
    have hc : isDigit c = false := hrest c rfl
    simp [hc]

/-! ## Rounds -/

theorem toNat_ofNat_value {n : Nat} (h : n < 2 ^ 32) : (UInt32.ofNat n).toNat = n := by
  rw [UInt32.toNat_ofNat', Nat.mod_eq_of_lt h]

/-- What a round that does not fail takes off the text and adds to the total. -/
inductive Takes (total : UInt32) : Bytes → UInt32 → Bytes → Prop where
  | last {ds : Bytes} {total' : UInt32} : IsNumber ds → value ds < 2 ^ 32 →
      total.toNat + value ds * 1 = total'.toNat → Takes total ds total' []
  | cons {ds : Bytes} {c : UInt8} (u : TimeUnit) {rest : Bytes} {total' : UInt32} :
      IsNumber ds → value ds < 2 ^ 32 → c = u.letter ∨ c = u.letter - 32 →
      total.toNat + value ds * u.seconds = total'.toNat → Takes total (ds ++ c :: rest) total' rest

theorem Takes.length_lt (h : Takes total str total' rest) : rest.length < str.length := by
  cases h with
  | last hds => exact List.length_pos_iff.mpr hds.1
  | cons u hds =>
    rw [List.length_append, List.length_cons]
    omega

theorem addTerm_value {total total' m : UInt32} {n : Nat} (h : n < 2 ^ 32) :
    addTerm total (UInt32.ofNat n) m = .ok total' ↔ total.toNat + n * m.toNat = total'.toNat := by
  rw [addTerm_eq_ok, toNat_ofNat_value h]

theorem takes_of_convertRound {i i' : Nat} (hne : str ≠ [])
    (h : convertRound i total str = .ok (i', total', rest)) : Takes total str total' rest := by
  have hsplit := List.takeWhile_append_dropWhile (p := isDigit) (l := str)
  unfold convertRound at h
  simp only at h
  split at h
  next => cases h
  next hcase =>
    -- there are digits: otherwise the whole text would be left, and it is not empty
    have hdigits : str.takeWhile isDigit ≠ [] := by
      intro hnil
      rw [hnil, List.nil_append] at hsplit
      cases hrest : str.dropWhile isDigit with
      | nil => exact hne (by rw [← hsplit, hrest])
      | cons c cs => exact hcase c cs hnil hrest
    have hnumber := isNumber_takeWhile hdigits
    rw [parseUint_number hnumber] at h
    by_cases hsmall : value (str.takeWhile isDigit) < 2 ^ 32
    · rw [if_pos hsmall] at h
      simp only at h
      split at h
      next hrest =>
        rw [hrest, List.append_nil] at hsplit
        cases hadd : addTerm total (UInt32.ofNat (value (str.takeWhile isDigit))) 1 with
        | error e => rw [hadd] at h; cases h
        | ok r =>
          rw [hadd] at h
          cases h
          rw [addTerm_value hsmall] at hadd
          rw [hsplit] at hadd hnumber hsmall
          exact .last hnumber hsmall hadd
      next c cs hrest =>
        rw [hrest] at hsplit
        split at h
        next => cases h
        next m hm =>
          cases hadd : addTerm total (UInt32.ofNat (value (str.takeWhile isDigit))) m with
          | error e => rw [hadd] at h; cases h
          | ok r =>
            rw [hadd] at h
            cases h
            obtain ⟨u, hc, hseconds⟩ := multiplier_eq_some.mp hm
            rw [addTerm_value hsmall, hseconds] at hadd
            rw [← hsplit]
            exact .cons u hnumber hsmall hc hadd
    · rw [if_neg hsmall] at h
      cases h

theorem convertRound_of_takes (h : Takes total str total' rest) (i : Nat) :
    ∃ i', convertRound i total str = .ok (i', total', rest) := by
  cases h with
  | last hnumber hsmall hsum =>
    obtain ⟨htake, hdrop⟩ := takeWhile_number hnumber [] (by simp)
    rw [List.append_nil] at htake hdrop
    have hadd := (addTerm_value (m := 1) hsmall).mpr hsum
    refine ⟨i + str.length, ?_⟩
    simp [convertRound, htake, hdrop, parseUint_small hnumber hsmall, hadd, Except.map]
  | @cons ds c u _ _ hnumber hsmall hc hsum =>
    obtain ⟨htake, hdrop⟩ := takeWhile_number hnumber (c :: rest)
      (by simpa using isDigit_letter hc)
    have hm : multiplier c = some (UInt32.ofNat u.seconds) :=
      multiplier_eq_some.mpr ⟨u, hc, by cases u <;> rfl⟩
    have hseconds : (UInt32.ofNat u.seconds).toNat = u.seconds := by cases u <;> rfl
    rw [← hseconds] at hsum
    have hadd := (addTerm_value hsmall).mpr hsum
    refine ⟨i + ds.length + 1, ?_⟩
    simp only [convertRound, htake, hdrop]
    split
    next => exact absurd rfl hnumber.1
    next => simp [parseUint_small hnumber hsmall, hm, hadd, Except.map]

theorem Terms.eq_nil {ts : List (Nat × Nat)} (h : Terms [] ts) : ts = [] := by
  generalize hstr : ([] : Bytes) = str at h
  cases h with
  | nil => rfl
  | last hnumber => exact absurd hstr.symm hnumber.1
  | cons => simp at hstr

/-- The rest of the text can be added to `total`, with `r` as the sum. -/
def Adds (total : UInt32) (str : Bytes) (r : UInt32) : Prop :=
  ∃ ts, Terms str ts ∧ (∀ t ∈ ts, t.1 < 2 ^ 32) ∧ total.toNat + sum ts = r.toNat

theorem adds_nil : Adds total [] r ↔ total = r := by
  constructor
  · rintro ⟨ts, hts, -, hsum⟩
    rw [hts.eq_nil, sum_nil, Nat.add_zero] at hsum
    exact UInt32.toNat_inj.mp hsum
  · rintro rfl
    exact ⟨[], .nil, by simp, by simp⟩

/-- Terms are added one after the other, as in the loop. -/
theorem adds_iff (hne : str ≠ []) :
    Adds total str r ↔ ∃ total' rest, Takes total str total' rest ∧ Adds total' rest r := by
  constructor
  · rintro ⟨ts, hts, hsmall, hsum⟩
    cases hts with
    | nil => exact absurd rfl hne
    | last hnumber =>
      refine ⟨r, [], .last hnumber (hsmall _ List.mem_cons_self) ?_, adds_nil.mpr rfl⟩
      simpa using hsum
    | @cons ds c u rest ts hnumber hc hrest =>
      rw [sum_cons, ← Nat.add_assoc] at hsum
      -- the new total is at most the sum `r`, so it is a 32-bit number
      have hlt : total.toNat + value ds * u.seconds < 2 ^ 32 := by
        have := r.toNat_lt
        simp only at hsum
        omega
      refine ⟨UInt32.ofNat (total.toNat + value ds * u.seconds), rest,
        .cons u hnumber (hsmall _ List.mem_cons_self) hc ?_, ts, hrest,
        fun t ht => hsmall t (List.mem_cons_of_mem _ ht), ?_⟩
      · rw [toNat_ofNat_value hlt]
      · rw [toNat_ofNat_value hlt]
        exact hsum
  · rintro ⟨total', rest, htakes, ts, hts, hsmall, hsum⟩
    cases htakes with
    | last hnumber hlt hadd =>
      rw [hts.eq_nil, sum_nil] at hsum
      refine ⟨_, .last hnumber, by simpa using hlt, ?_⟩
      rw [sum_cons, sum_nil]
      omega
    | @cons ds c u _ _ hnumber hlt hc hadd =>
      refine ⟨_, .cons u hnumber hc hts, List.forall_mem_cons.mpr ⟨hlt, hsmall⟩, ?_⟩
      rw [sum_cons]
      simp only
      omega

/-- **Run lemma.**  By induction on the rounds: the loop succeeds exactly if the rest of the
    text is written as terms that can be added to the total. -/
theorem convertLoop_eq_ok (rounds i : Nat) (total r : UInt32) (hlen : str.length ≤ rounds) :
    convertLoop rounds i total str = .ok r ↔ Adds total str r := by
  induction rounds generalizing i total str with
  | zero =>
    have hnil : str = [] := List.length_eq_zero_iff.mp (Nat.le_zero.mp hlen)
    subst hnil
    simp [convertLoop, adds_nil]
  | succ rounds ih =>
    cases str with
    | nil => simp [convertLoop, adds_nil]
    | cons c str =>
      rw [adds_iff (List.cons_ne_nil c str), convertLoop]
      constructor
      · intro h
        cases hround : convertRound i total (c :: str) with
        | error e => rw [hround] at h; cases h
        | ok next =>
          obtain ⟨i', total', rest⟩ := next
          rw [hround] at h
          have htakes := takes_of_convertRound (List.cons_ne_nil c str) hround
          have hshort := htakes.length_lt
          exact ⟨total', rest, htakes, (ih i' total' (by omega)).mp h⟩
      · rintro ⟨total', rest, htakes, hadds⟩
        obtain ⟨i', hround⟩ := convertRound_of_takes htakes i
        have hshort := htakes.length_lt
        rw [hround]
        exact (ih i' total' (by omega)).mpr hadds

theorem convertSshTime_eq_ok : convertSshTime str = .ok r ↔ str ≠ [] ∧ Adds 0 str r := by
  unfold convertSshTime
  by_cases hne : str = []
  · simp [hne]
  · rw [if_neg hne, convertLoop_eq_ok _ _ _ _ (Nat.le_refl _)]
    simp [hne]

/-- **Exact time.**  `convertSshTime` succeeds with `t` exactly if the text is a non-empty
    sequence of numbers below `2 ^ 32` with units, and the seconds add up to `t`, below `2 ^ 32`;
    otherwise it returns an error.  In every round that does not fail the product and the new
    total are those of natural numbers. -/
theorem convertSshTime_exact (str : Bytes) :
    (∀ t : Nat, (∃ r, convertSshTime str = .ok r ∧ r.toNat = t) ↔
      str ≠ [] ∧ ∃ ts, Terms str ts ∧ (∀ n ∈ ts, n.1 < 2 ^ 32) ∧ sum ts = t ∧ t < 2 ^ 32) ∧
    ((¬ ∃ ts, str ≠ [] ∧ Terms str ts ∧ (∀ n ∈ ts, n.1 < 2 ^ 32) ∧ sum ts < 2 ^ 32) →
      ∃ e, convertSshTime str = .error e) ∧
    ∀ total val m r, addTerm total val m = .ok r →
      (val * m).toNat = val.toNat * m.toNat ∧ r.toNat = total.toNat + val.toNat * m.toNat := by
  refine ⟨?_, ?_, ?_⟩
  · intro t
    constructor
    · rintro ⟨r, hr, rfl⟩
      obtain ⟨hne, ts, hts, hsmall, hsum⟩ := convertSshTime_eq_ok.mp hr
      exact ⟨hne, ts, hts, hsmall, by simpa using hsum, r.toNat_lt⟩
    · rintro ⟨hne, ts, hts, hsmall, rfl, hlt⟩
      refine ⟨UInt32.ofNat (sum ts), convertSshTime_eq_ok.mpr ⟨hne, ts, hts, hsmall, ?_⟩,
        toNat_ofNat_value hlt⟩
      rw [toNat_ofNat_value hlt]
      exact Nat.zero_add _
  · intro hno
    cases hr : convertSshTime str with
    | error e => exact ⟨e, rfl⟩
    | ok r =>
      obtain ⟨hne, ts, hts, hsmall, hsum⟩ := convertSshTime_eq_ok.mp hr
      refine absurd ⟨ts, hne, hts, hsmall, ?_⟩ hno
      have := r.toNat_lt
      have hzero : (0 : UInt32).toNat = 0 := rfl
      omega
  · intro total val m r hadd
    have hsum := (addTerm_eq_ok total val m r).mp hadd
    have hlt := r.toNat_lt
    refine ⟨?_, hsum.symm⟩
    rw [UInt32.toNat_mul, Nat.mod_eq_of_lt (by omega)]

example : convertSshTime (TmuxInput.text "1W2d3h4m5") = .ok 788645 ∧
    convertSshTime (TmuxInput.text "10m5y") = .error (.invalidUnit 0x79) := by decide +kernel

end SshTime
