import Tssh.Framework.System
import Mathlib.Logic.Function.Basic

/-! # The Event Loop of a Timeout Checker

    A `timeoutChecker` (`tsshd/comm.go`) has one goroutine, `handleEvent`, that receives the
    update and timeout events.  It owns `timeoutFlag` and `reconnectedCh`: a timeout installs a
    new channel and then sets the flag, a reconnect clears the flag, takes the channel out and
    then closes it.  `waitReconnect` reads both at any time and blocks on the channel it found.

    Every atomic access is one step, of the loop or of one of any number of waiters.  The clock
    is read from the environment, and nothing is assumed about what it shows.

    * `Loop.Fits`: which flag and channel go with each program point of the loop.
    * `LoopInv`: every channel that was taken out has been closed once.
    * `idle_flag_iff_channel`: what holds when the loop waits for its next event, and what a
      waiter that returns `nil` has seen.
-/

open LTS

namespace Checker

/-! ## State -/

/-- Where `handleEvent` is.  The points after `loadFlag` are `setReconnected`. -/
inductive Loop where
  | idle
  | storeNow
  | loadTime (msec : Int)
  | storeTime (msec : Int)
  | testTime (msec : Int)
  | loadFlag
  | clearFlag
  | swapNil
  | closeCh (ch : Option Nat)
  | goReconnected
  | testTimeout
  | testFlag
  | swapNew
  | closeOld (old : Option Nat)
  | setFlag
  | goTimeout
  | ended
  deriving DecidableEq, Repr

/-- What `waitReconnect` returns. -/
inductive WaitResult where
  | ok
  | closed
  | canceled
  deriving DecidableEq, Repr

/-- Where a `waitReconnect` call is. -/
inductive Wait where
  | out
  | test
  | load
  | sleep
  | retest (ch : Option Nat)
  | select (ch : Nat)
  | returned (r : WaitResult)
  deriving DecidableEq, Repr

/-- A waiter; `sawFalse` is whether the flag was false at some moment of its call. -/
structure Waiter where
  pc : Wait
  sawFalse : Bool
  deriving DecidableEq, Repr

/-- The call has begun and not returned. -/
def Waiter.inCall (w : Waiter) : Bool :=
  match w.pc with
  | .out => false
  | .returned _ => false
  | _ => true

/-- The flag is false now. -/
def Waiter.see (w : Waiter) : Waiter := if w.inCall then { w with sawFalse := true } else w

/-- `timeoutChecker`.  Channels are known by number: `made` were made so far, and channel `ch`
    was closed `closes ch` times.  `timingOut` and `reconnecting` are the goroutines of
    `notifyTimeout` and `notifyReconnected` that have not run yet, and `started` are the
    callbacks they have started. -/
structure State (Cb : Type) where
  heartbeatTimeout : Int
  closed : Bool
  timeoutFlag : Bool
  lastAliveTime : Int
  reconnectedCh : Option Nat
  made : Nat
  closes : Nat → Nat
  loop : Loop
  waiters : Nat → Waiter
  timeoutCallbacks : List Cb
  reconnectedCallbacks : List Cb
  timingOut : Nat
  reconnecting : Nat
  started : List Cb

variable {Cb : Type}

/-- `newTimeoutChecker`, at time `now`. -/
def new (heartbeatTimeout now : Int) : State Cb where
  heartbeatTimeout := heartbeatTimeout
  closed := false
  timeoutFlag := false
  lastAliveTime := now / 1000000
  reconnectedCh := none
  made := 0
  closes := fun _ => 0
  loop := .idle
  waiters := fun _ => ⟨.out, false⟩
  timeoutCallbacks := []
  reconnectedCallbacks := []
  timingOut := 0
  reconnecting := 0
  started := []

/-- `close(*ch)` where there is a channel. -/
def closeChan (closes : Nat → Nat) : Option Nat → Nat → Nat
  | none => closes
  | some ch => Function.update closes ch (closes ch + 1)

/-- `time.UnixMilli(msec).Add(tc.heartbeatTimeout)`, in nanoseconds. -/
def State.deadline (s : State Cb) (msec : Int) : Int := msec * 1000000 + s.heartbeatTimeout

/-! ## Steps -/

/-- One atomic step of `handleEvent`, where the clock shows `now`. -/
def loopStep (s : State Cb) (now : Int) : Option (State Cb) :=
  match s.loop with
  | .idle => none
  -- `updateNow`
  | .storeNow => some { s with lastAliveTime := now / 1000000, loop := .loadFlag }
  -- `updateTime`: an older time is ignored
  | .loadTime msec =>
    some { s with loop := if msec > s.lastAliveTime then .storeTime msec else .idle }
  | .storeTime msec => some { s with lastAliveTime := msec, loop := .testTime msec }
  | .testTime msec =>
    some { s with loop := if s.deadline msec > now then .loadFlag else .idle }
  -- `setReconnected`: the flag is cleared before the channel is taken out and closed
  | .loadFlag => some { s with loop := if s.timeoutFlag then .clearFlag else .idle }
  | .clearFlag =>
    some { s with
      timeoutFlag := false
      waiters := fun i => (s.waiters i).see
      loop := .swapNil }
  | .swapNil => some { s with reconnectedCh := none, loop := .closeCh s.reconnectedCh }
  | .closeCh ch => some { s with closes := closeChan s.closes ch, loop := .goReconnected }
  | .goReconnected => some { s with reconnecting := s.reconnecting + 1, loop := .idle }
  -- a timeout: the channel is there before the flag is set
  | .testTimeout =>
    some { s with loop := if s.deadline s.lastAliveTime < now then .testFlag else .idle }
  | .testFlag => some { s with loop := if s.timeoutFlag then .idle else .swapNew }
  | .swapNew =>
    some { s with
      reconnectedCh := some s.made
      made := s.made + 1
      loop := .closeOld s.reconnectedCh }
  | .closeOld old => some { s with closes := closeChan s.closes old, loop := .setFlag }
  | .setFlag => some { s with timeoutFlag := true, loop := .goTimeout }
  | .goTimeout => some { s with timingOut := s.timingOut + 1, loop := .idle }
  | .ended => none

/-- The inner loop after a load: sleep without a channel, else wait for it. -/
def afterLoad : Option Nat → Wait
  | none => .sleep
  | some ch => .select ch

/-- One atomic step of a waiter that is not blocked. -/
def waitStep (s : State Cb) : Wait → Option Wait
  | .test => some (if s.timeoutFlag then .load else .returned .ok)
  | .load => some (afterLoad s.reconnectedCh)
  | .sleep => some (.retest s.reconnectedCh)
  | .retest ch => some (if s.timeoutFlag then afterLoad ch else .returned .ok)
  | .select _ => none
  | .out => none
  | .returned _ => none

def State.setWait (s : State Cb) (i : Nat) (pc : Wait) : State Cb :=
  { s with waiters := Function.update s.waiters i { s.waiters i with pc := pc } }

/-- An event for the loop, a step of the loop, `Close`, the life of a waiter, a new callback,
    and the goroutines that start the callbacks. -/
inductive Label (Cb : Type) where
  | updateNow
  | updateTime (msec : Int)
  | timeoutEvent
  | loop (now : Int)
  | close
  | loopEnd
  | call (i : Nat)
  | wait (i : Nat)
  | woken (i : Nat)
  | waitClosed (i : Nat)
  | waitDone (i : Nat)
  | onTimeout (cb : Cb)
  | onReconnected (cb : Cb)
  | notifyTimeout
  | notifyReconnected

/-- The waiter is blocked in its `select`. -/
def Wait.channel : Wait → Option Nat
  | .select ch => some ch
  | _ => none

def next (s : State Cb) : Label Cb → Option (State Cb)
  | .updateNow => enabledIf (s.loop = .idle) { s with loop := .storeNow }
  | .updateTime msec => enabledIf (s.loop = .idle) { s with loop := .loadTime msec }
  | .timeoutEvent => enabledIf (s.loop = .idle) { s with loop := .testTimeout }
  | .loop now => loopStep s now
  | .close => some { s with closed := true }
  | .loopEnd => enabledIf (s.loop = .idle ∧ s.closed = true) { s with loop := .ended }
  | .call i =>
    enabledIf ((s.waiters i).inCall = false)
      { s with waiters := Function.update s.waiters i ⟨.test, !s.timeoutFlag⟩ }
  | .wait i => (waitStep s (s.waiters i).pc).map (s.setWait i)
  | .woken i =>
    enabledIf (∃ ch ∈ (s.waiters i).pc.channel, 0 < s.closes ch) (s.setWait i .test)
  | .waitClosed i =>
    enabledIf ((s.waiters i).pc.channel ≠ none ∧ s.closed = true)
      (s.setWait i (.returned .closed))
  | .waitDone i =>
    enabledIf ((s.waiters i).pc.channel ≠ none) (s.setWait i (.returned .canceled))
  | .onTimeout cb => some { s with timeoutCallbacks := s.timeoutCallbacks ++ [cb] }
  | .onReconnected cb => some { s with reconnectedCallbacks := s.reconnectedCallbacks ++ [cb] }
  | .notifyTimeout =>
    enabledIf (0 < s.timingOut)
      { s with timingOut := s.timingOut - 1, started := s.started ++ s.timeoutCallbacks }
  | .notifyReconnected =>
    enabledIf (0 < s.reconnecting)
      { s with
        reconnecting := s.reconnecting - 1
        started := s.started ++ s.reconnectedCallbacks }

/-- A checker made at time `now`, with any events and any waiters. -/
def checkerRuns (Cb : Type) (heartbeatTimeout now : Int) : System (State Cb) (Label Cb) :=
  .ofStep (new heartbeatTimeout now) next

/-! ## The loop -/

/-- The channel the loop has taken out and not closed yet. -/
def Loop.closing : Loop → Option Nat
  | .closeCh ch => ch
  | .closeOld old => old
  | _ => none

/-- The flag, and whether there is a channel, at each program point.  They differ only after
    the first of the two stores of a timeout or a reconnect. -/
def Loop.Fits (flag channel : Bool) : Loop → Prop
  | .clearFlag => flag = true ∧ channel = true
  | .swapNil => flag = false ∧ channel = true
  | .closeCh _ => flag = false ∧ channel = false
  | .goReconnected => flag = false ∧ channel = false
  | .swapNew => flag = false ∧ channel = false
  | .closeOld _ => flag = false ∧ channel = true
  | .setFlag => flag = false ∧ channel = true
  | .goTimeout => flag = true ∧ channel = true
  | _ => flag = channel

structure LoopInv (s : State Cb) : Prop where
  fits : s.loop.Fits s.timeoutFlag s.reconnectedCh.isSome
  current : ∀ ch, s.reconnectedCh = some ch →
    ch < s.made ∧ s.closes ch = 0 ∧ s.loop.closing ≠ some ch
  closing : ∀ ch, s.loop.closing = some ch → ch < s.made ∧ s.closes ch = 0
  old : ∀ ch < s.made, s.reconnectedCh ≠ some ch → s.loop.closing ≠ some ch → s.closes ch = 1
  unmade : ∀ ch, s.made ≤ ch → s.closes ch = 0

variable {s s' : State Cb} {now : Int} {w : Waiter}

/-- Steps that leave the channels alone. -/
theorem LoopInv.move (hinv : LoopInv s) (hch : s'.reconnectedCh = s.reconnectedCh)
    (hmade : s'.made = s.made) (hcloses : s'.closes = s.closes) (hbefore : s.loop.closing = none)
    (hafter : s'.loop.closing = none)
    (hfits : s'.loop.Fits s'.timeoutFlag s'.reconnectedCh.isSome) :
    LoopInv s' := by
  refine ⟨hfits, ?_, ?_, ?_, by rw [hmade, hcloses]; exact hinv.unmade⟩
  · intro ch hcur
    rw [hch] at hcur
    obtain ⟨hlt, hopen, -⟩ := hinv.current ch hcur
    rw [hmade, hcloses, hafter]
    exact ⟨hlt, hopen, nofun⟩
  · intro ch hclosing
    rw [hafter] at hclosing
    cases hclosing
  · intro ch hlt hcur _
    rw [hmade] at hlt
    rw [hch] at hcur
    rw [hcloses]
    exact hinv.old ch hlt hcur (by rw [hbefore]; nofun)

theorem closeChan_of_ne {closes : Nat → Nat} {taken : Option Nat} {ch : Nat}
    (hne : taken ≠ some ch) : closeChan closes taken ch = closes ch := by
  cases taken with
  | none => rfl
  | some c =>
    have hne : ch ≠ c := fun heq => hne (by rw [heq])
    exact Function.update_of_ne hne ..

section

variable (hinv : LoopInv s)
include hinv

/-- Closing the channel that was taken out. -/
theorem LoopInv.close {taken : Option Nat} (htaken : s.loop.closing = taken)
    (hch : s'.reconnectedCh = s.reconnectedCh) (hmade : s'.made = s.made)
    (hcloses : s'.closes = closeChan s.closes taken) (hafter : s'.loop.closing = none)
    (hfits : s'.loop.Fits s'.timeoutFlag s'.reconnectedCh.isSome) : LoopInv s' := by
  refine ⟨hfits, ?_, ?_, ?_, ?_⟩
  · intro ch hcur
    rw [hch] at hcur
    obtain ⟨hlt, hopen, hne⟩ := hinv.current ch hcur
    rw [htaken] at hne
    rw [hmade, hcloses, hafter, closeChan_of_ne hne]
    exact ⟨hlt, hopen, nofun⟩
  · intro ch hclosing
    rw [hafter] at hclosing
    cases hclosing
  · intro ch hlt hcur _
    rw [hmade] at hlt
    rw [hch] at hcur
    rw [hcloses]
    by_cases heq : taken = some ch
    · obtain ⟨-, hopen⟩ := hinv.closing ch (htaken.trans heq)
      subst heq
      show Function.update s.closes ch (s.closes ch + 1) ch = 1
      rw [Function.update_self, hopen]
    · rw [closeChan_of_ne heq]
      exact hinv.old ch hlt hcur (by rw [htaken]; exact heq)
  · intro ch hge
    rw [hmade] at hge
    have hne : taken ≠ some ch := by
      intro heq
      obtain ⟨hlt, -⟩ := hinv.closing ch (htaken.trans heq)
      exact absurd hlt (Nat.not_lt.mpr hge)
    rw [hcloses, closeChan_of_ne hne]
    exact hinv.unmade ch hge

/-- Taking the channel out. -/
theorem LoopInv.swapNil (hloop : s.loop = .swapNil) :
    LoopInv { s with reconnectedCh := none, loop := .closeCh s.reconnectedCh } := by
  have hfits := hinv.fits
  rw [hloop] at hfits
  refine ⟨⟨hfits.1, rfl⟩, ?_, ?_, ?_, hinv.unmade⟩
  · intro ch hcur
    cases hcur
  · intro ch hclosing
    obtain ⟨hlt, hopen, -⟩ := hinv.current ch hclosing
    exact ⟨hlt, hopen⟩
  · intro ch hlt _ hclosing
    exact hinv.old ch hlt hclosing (by rw [hloop]; nofun)

/-- Putting a new channel in: there was none, so none has to be closed. -/
theorem LoopInv.swapNew (hloop : s.loop = .swapNew) :
    LoopInv { s with
      reconnectedCh := some s.made
      made := s.made + 1
      loop := .closeOld s.reconnectedCh } := by
  have hfits := hinv.fits
  rw [hloop] at hfits
  have hnone : s.reconnectedCh = none := by
    cases hch : s.reconnectedCh with
    | none => rfl
    | some ch =>
      rw [hch] at hfits
      exact absurd hfits.2 Bool.noConfusion
  refine ⟨⟨hfits.1, rfl⟩, ?_, ?_, ?_, ?_⟩
  · intro ch hcur
    cases hcur
    refine ⟨Nat.lt_succ_self _, hinv.unmade _ (Nat.le_refl _), ?_⟩
    show s.reconnectedCh ≠ some s.made
    rw [hnone]
    nofun
  · intro ch hclosing
    exact absurd (hnone.symm.trans hclosing) nofun
  · intro ch hlt hcur _
    have hne : ch ≠ s.made := fun heq => hcur (by rw [heq])
    have hlt : ch < s.made := Nat.lt_of_le_of_ne (Nat.le_of_lt_succ hlt) hne
    exact hinv.old ch hlt (by rw [hnone]; nofun) (by rw [hloop]; nofun)
  · intro ch hge
    exact hinv.unmade ch (Nat.le_of_succ_le hge)

/-- A test that leaves the channels alone, with either outcome. -/
theorem LoopInv.test (hbefore : s.loop.closing = none) {c : Prop} [Decidable c] {yes no : Loop}
    (hyes : yes.closing = none) (hno : no.closing = none)
    (hyesFits : c → yes.Fits s.timeoutFlag s.reconnectedCh.isSome)
    (hnoFits : ¬ c → no.Fits s.timeoutFlag s.reconnectedCh.isSome) :
    LoopInv { s with loop := if c then yes else no } := by
  by_cases hc : c
  · rw [if_pos hc]
    exact hinv.move rfl rfl rfl hbefore hyes (hyesFits hc)
  · rw [if_neg hc]
    exact hinv.move rfl rfl rfl hbefore hno (hnoFits hc)

theorem LoopInv.loopStep (h : loopStep s now = some s') : LoopInv s' := by
  have hfits := hinv.fits
  unfold Checker.loopStep at h
  cases hloop : s.loop with
  | idle =>
    rw [hloop] at h
    cases h
  | ended =>
    rw [hloop] at h
    cases h
  | storeNow | storeTime msec =>
    rw [hloop] at h hfits
    cases h
    exact hinv.move rfl rfl rfl (by rw [hloop]; rfl) rfl hfits
  | loadTime msec | testTime msec | testTimeout =>
    rw [hloop] at h hfits
    cases h
    exact hinv.test (by rw [hloop]; rfl) rfl rfl (fun _ => hfits) (fun _ => hfits)
  | loadFlag =>
    rw [hloop] at h hfits
    cases h
    refine hinv.test (by rw [hloop]; rfl) rfl rfl ?_ (fun _ => hfits)
    -- the flag is only written by the loop, so what it loads stays true
    intro hflag
    exact ⟨hflag, hfits.symm.trans hflag⟩
  | clearFlag | setFlag =>
    rw [hloop] at h hfits
    cases h
    exact hinv.move rfl rfl rfl (by rw [hloop]; rfl) rfl ⟨rfl, hfits.2⟩
  | swapNil =>
    rw [hloop] at h
    cases h
    exact hinv.swapNil hloop
  | closeCh ch | closeOld old =>
    rw [hloop] at h hfits
    cases h
    -- the channel was swapped out before: no one else closes it
    exact hinv.close (by rw [hloop]; rfl) rfl rfl rfl rfl hfits
  | goReconnected | goTimeout =>
    rw [hloop] at h hfits
    cases h
    exact hinv.move rfl rfl rfl (by rw [hloop]; rfl) rfl (hfits.1.trans hfits.2.symm)
  | testFlag =>
    rw [hloop] at h hfits
    cases h
    refine hinv.test (by rw [hloop]; rfl) rfl rfl (fun _ => hfits) ?_
    intro hflag
    have hflag := Bool.eq_false_iff.mpr hflag
    exact ⟨hflag, hfits.symm.trans hflag⟩
  | swapNew =>
    rw [hloop] at h
    cases h
    exact hinv.swapNew hloop

/-- The steps that belong to neither the loop nor a waiter keep the loop where it is. -/
theorem LoopInv.next {l : Label Cb} (h : next s l = some s') : LoopInv s' := by
  have hfits := hinv.fits
  cases l with
  | updateNow | updateTime msec | timeoutEvent =>
    obtain ⟨hloop, rfl⟩ := enabledIf_eq_some h
    rw [hloop] at hfits
    exact hinv.move rfl rfl rfl (by rw [hloop]; rfl) rfl hfits
  | loopEnd =>
    obtain ⟨⟨hloop, -⟩, rfl⟩ := enabledIf_eq_some h
    rw [hloop] at hfits
    exact hinv.move rfl rfl rfl (by rw [hloop]; rfl) rfl hfits
  | loop now => exact hinv.loopStep h
  | wait i =>
    obtain ⟨pc, -, rfl⟩ := Option.map_eq_some_iff.mp h
    exact ⟨hfits, hinv.current, hinv.closing, hinv.old, hinv.unmade⟩
  | close | onTimeout cb | onReconnected cb =>
    cases h
    exact ⟨hfits, hinv.current, hinv.closing, hinv.old, hinv.unmade⟩
  | _ =>
    obtain ⟨-, rfl⟩ := enabledIf_eq_some h
    exact ⟨hfits, hinv.current, hinv.closing, hinv.old, hinv.unmade⟩

end

theorem loopInv_of_reachable {hb now : Int} (hs : (checkerRuns Cb hb now).Reachable s) :
    LoopInv s := by
  refine System.invariant_ofStep ?_ (fun _ _ _ h => h.next) hs
  exact ⟨rfl, nofun, nofun, fun _ hlt => absurd hlt (Nat.not_lt_zero _), fun _ _ => rfl⟩

/-- How many steps the loop can still take before it waits for an event. -/
def Loop.rank : Loop → Nat
  | .idle => 0
  | .ended => 0
  | .goReconnected => 1
  | .closeCh _ => 2
  | .swapNil => 3
  | .clearFlag => 4
  | .loadFlag => 5
  | .testTime _ => 6
  | .storeTime _ => 7
  | .loadTime _ => 8
  | .storeNow => 6
  | .goTimeout => 1
  | .setFlag => 2
  | .closeOld _ => 3
  | .swapNew => 4
  | .testFlag => 5
  | .testTimeout => 6

/-- A loop that is not waiting can go on, and comes closer to waiting again. -/
theorem loopStep_of_rank (s : State Cb) (now : Int) (hrank : s.loop.rank ≠ 0) :
    ∃ s', loopStep s now = some s' ∧ s'.loop.rank < s.loop.rank := by
  unfold loopStep
  cases hloop : s.loop with
  | idle | ended =>
    rw [hloop] at hrank
    exact absurd rfl hrank
  | loadTime msec | testTime msec | loadFlag | testTimeout | testFlag =>
    refine ⟨_, rfl, ?_⟩
    dsimp only
    split <;> simp [Loop.rank]
  | _ => exact ⟨_, rfl, by simp [Loop.rank]⟩

/-- One step starts at most one notification. -/
theorem loopStep_reconnecting (h : loopStep s now = some s') :
    s'.reconnecting ≤ s.reconnecting + 1 ∧ s'.started = s.started ∧
      s'.reconnectedCallbacks = s.reconnectedCallbacks := by
  unfold loopStep at h
  split at h
  all_goals cases h
  all_goals first
    | exact ⟨Nat.le_succ _, rfl, rfl⟩
    | exact ⟨Nat.le_refl _, rfl, rfl⟩

/-! ## The waiters -/

/-- The channel a waiter has loaded. -/
def Wait.holds : Wait → Option Nat
  | .select ch => some ch
  | .retest ch => ch
  | _ => none

/-- A waiter holds channels that were made, has seen the flag where it is false, and has seen
    it false where it returned `nil`. -/
structure WaiterInv (s : State Cb) (w : Waiter) : Prop where
  held : ∀ ch, w.pc.holds = some ch → ch < s.made
  sees : w.inCall = true → s.timeoutFlag = false → w.sawFalse = true
  saw : w.pc = .returned .ok → w.sawFalse = true

theorem WaiterInv.mono (hw : WaiterInv s w) (hmade : s.made ≤ s'.made)
    (hflag : s'.timeoutFlag = false → s.timeoutFlag = false) : WaiterInv s' w :=
  ⟨fun ch hch => Nat.lt_of_lt_of_le (hw.held ch hch) hmade,
   fun hin hfalse => hw.sees hin (hflag hfalse), hw.saw⟩

/-- The flag becomes false: every waiter in a call sees it. -/
theorem WaiterInv.see (hw : WaiterInv s w) (hmade : s'.made = s.made) : WaiterInv s' w.see := by
  unfold Waiter.see
  split
  · exact ⟨fun ch hch => hmade ▸ hw.held ch hch, fun _ _ => rfl, fun _ => rfl⟩
  · next hout =>
    exact ⟨fun ch hch => hmade ▸ hw.held ch hch, fun hin => absurd hin hout, hw.saw⟩

theorem afterLoad_holds (ch : Option Nat) : (afterLoad ch).holds = ch := by
  cases ch with
  | none => rfl
  | some ch => rfl

theorem afterLoad_ne_returned (ch : Option Nat) (r : WaitResult) :
    afterLoad ch ≠ .returned r := by
  cases ch with
  | none => nofun
  | some ch => nofun

/-- A waiter that stays in its call. -/
theorem WaiterInv.stay (hw : WaiterInv s w) (hin : w.inCall = true) {pc : Wait}
    (hheld : ∀ ch, pc.holds = some ch → ch < s.made) (hok : pc ≠ .returned .ok) :
    WaiterInv s { w with pc := pc } :=
  ⟨hheld, fun _ hfalse => hw.sees hin hfalse, fun hret => absurd hret hok⟩

/-- A waiter that returns `nil` found the flag false. -/
theorem WaiterInv.return (hw : WaiterInv s w) (hin : w.inCall = true)
    (hfalse : s.timeoutFlag = false) : WaiterInv s { w with pc := .returned .ok } :=
  ⟨nofun, nofun, fun _ => hw.sees hin hfalse⟩

theorem WaiterInv.waitStep {pc : Wait} (hinv : LoopInv s) (hw : WaiterInv s w)
    (h : waitStep s w.pc = some pc) : WaiterInv s { w with pc := pc } := by
  have hmade : ∀ ch, s.reconnectedCh = some ch → ch < s.made :=
    fun ch hch => (hinv.current ch hch).1
  cases hpc : w.pc with
  | test =>
    have hin : w.inCall = true := by rw [Waiter.inCall, hpc]
    rw [hpc] at h
    cases h
    split
    · exact hw.stay hin nofun nofun
    · next hflag => exact hw.return hin (Bool.eq_false_iff.mpr hflag)
  | load =>
    have hin : w.inCall = true := by rw [Waiter.inCall, hpc]
    rw [hpc] at h
    cases h
    exact hw.stay hin (by rw [afterLoad_holds]; exact hmade) (afterLoad_ne_returned _ _)
  | sleep =>
    have hin : w.inCall = true := by rw [Waiter.inCall, hpc]
    rw [hpc] at h
    cases h
    exact hw.stay hin hmade nofun
  | retest ch =>
    have hin : w.inCall = true := by rw [Waiter.inCall, hpc]
    have hheld := hw.held
    rw [hpc] at h hheld
    cases h
    split
    · exact hw.stay hin (by rw [afterLoad_holds]; exact hheld) (afterLoad_ne_returned _ _)
    · next hflag => exact hw.return hin (Bool.eq_false_iff.mpr hflag)
  | select ch =>
    rw [hpc] at h
    cases h
  | out =>
    rw [hpc] at h
    cases h
  | returned r =>
    rw [hpc] at h
    cases h

theorem inCall_of_channel {ch : Nat} (hch : ch ∈ w.pc.channel) : w.inCall = true := by
  unfold Waiter.inCall
  cases hpc : w.pc with
  | select c => rfl
  | out =>
    rw [hpc] at hch
    cases hch
  | returned r =>
    rw [hpc] at hch
    cases hch
  | _ => rfl

/-- One waiter moves, the others stay. -/
theorem waiterInv_update (hws : ∀ i, WaiterInv s (s.waiters i)) (i : Nat) (w : Waiter)
    (hw : WaiterInv s w) (j : Nat) :
    WaiterInv { s with waiters := Function.update s.waiters i w }
      (Function.update s.waiters i w j) := by
  by_cases hj : j = i
  · subst hj
    rw [Function.update_self]
    exact hw.mono (Nat.le_refl _) id
  · rw [Function.update_of_ne hj]
    exact (hws j).mono (Nat.le_refl _) id

/-- What a loop step does to the fields the waiters read. -/
theorem loopStep_waiters (h : loopStep s now = some s') :
    s.made ≤ s'.made ∧
      ((s'.waiters = s.waiters ∧ (s'.timeoutFlag = false → s.timeoutFlag = false)) ∨
       (s'.made = s.made ∧ s'.waiters = fun i => (s.waiters i).see)) := by
  unfold loopStep at h
  split at h
  all_goals cases h
  all_goals first
    | exact ⟨Nat.le_refl _, .inl ⟨rfl, id⟩⟩
    | exact ⟨Nat.le_refl _, .inr ⟨rfl, rfl⟩⟩
    | exact ⟨Nat.le_succ _, .inl ⟨rfl, id⟩⟩
    | exact ⟨Nat.le_refl _, .inl ⟨rfl, nofun⟩⟩

theorem waiterInv_next {l : Label Cb} (hinv : LoopInv s) (hws : ∀ i, WaiterInv s (s.waiters i))
    (h : next s l = some s') (j : Nat) : WaiterInv s' (s'.waiters j) := by
  cases l with
  | loop now =>
    obtain ⟨hmade, ⟨hwaiters, hflag⟩ | ⟨hmade', hwaiters⟩⟩ := loopStep_waiters h
    · rw [hwaiters]
      exact (hws j).mono hmade hflag
    · rw [hwaiters]
      exact (hws j).see hmade'
  | call i =>
    obtain ⟨-, rfl⟩ := enabledIf_eq_some h
    refine waiterInv_update hws i ⟨.test, !s.timeoutFlag⟩ ⟨nofun, fun _ hfalse => ?_, nofun⟩ j
    show (!s.timeoutFlag) = true
    rw [hfalse]
    rfl
  | wait i =>
    obtain ⟨pc, hstep, rfl⟩ := Option.map_eq_some_iff.mp h
    exact waiterInv_update hws i _ ((hws i).waitStep hinv hstep) j
  | woken i =>
    obtain ⟨⟨ch, hch, -⟩, rfl⟩ := enabledIf_eq_some h
    exact waiterInv_update hws i { s.waiters i with pc := .test }
      ((hws i).stay (inCall_of_channel hch) nofun nofun) j
  | waitClosed i =>
    obtain ⟨⟨hch, -⟩, rfl⟩ := enabledIf_eq_some h
    exact waiterInv_update hws i { s.waiters i with pc := .returned .closed } ⟨nofun, nofun, nofun⟩ j
  | waitDone i =>
    obtain ⟨hch, rfl⟩ := enabledIf_eq_some h
    exact waiterInv_update hws i { s.waiters i with pc := .returned .canceled } ⟨nofun, nofun, nofun⟩ j
  | close | onTimeout cb | onReconnected cb =>
    cases h
    exact (hws j).mono (Nat.le_refl _) id
  | _ =>
    obtain ⟨-, rfl⟩ := enabledIf_eq_some h
    exact (hws j).mono (Nat.le_refl _) id

theorem waiterInv_of_reachable {hb now : Int} (hs : (checkerRuns Cb hb now).Reachable s) (i : Nat) :
    WaiterInv s (s.waiters i) := by
  revert i
  apply System.invariant_with _ (fun s hs => loopInv_of_reachable hs) _ _ hs
  · intro s hstart i
    rw [hstart]
    exact ⟨nofun, nofun, nofun⟩
  · intro s l s' hinv hws hnext
    exact waiterInv_next hinv hws hnext

/-! ## Results -/

/-- **The checker at rest**: when the loop waits for its next event, the flag is set exactly
    when there is a channel, that channel is open, every other channel has been closed exactly
    once, and no waiter is blocked on an open channel while the flag is false.  A waiter that
    returned `nil` saw the flag false. -/
theorem idle_flag_iff_channel (hb now : Int) {s : State Cb}
    (hs : (checkerRuns Cb hb now).Reachable s) :
    (s.loop = .idle →
      (s.timeoutFlag = true ↔ ∃ ch, s.reconnectedCh = some ch) ∧
      (∀ ch, s.reconnectedCh = some ch → ch < s.made ∧ s.closes ch = 0) ∧
      (∀ ch < s.made, s.reconnectedCh ≠ some ch → s.closes ch = 1) ∧
      (s.timeoutFlag = false → ∀ i ch, (s.waiters i).pc = .select ch → s.closes ch = 1)) ∧
    ∀ i, (s.waiters i).pc = .returned .ok → (s.waiters i).sawFalse = true := by
  have hinv := loopInv_of_reachable hs
  have hws := waiterInv_of_reachable hs
  refine ⟨?_, fun i => (hws i).saw⟩
  intro hidle
  have hfits := hinv.fits
  have hopen := hinv.current
  have hold := hinv.old
  rw [hidle] at hfits hopen hold
  refine ⟨?_, ?_, ?_, ?_⟩
  · rw [show s.timeoutFlag = s.reconnectedCh.isSome from hfits, Option.isSome_iff_exists]
  · intro ch hch
    exact ⟨(hopen ch hch).1, (hopen ch hch).2.1⟩
  · intro ch hlt hch
    exact hold ch hlt hch nofun
  · intro hfalse i ch hpc
    have hheld : ch < s.made := (hws i).held ch (by rw [hpc]; rfl)
    apply hold ch hheld _ nofun
    intro hch
    have hflag : s.timeoutFlag = s.reconnectedCh.isSome := hfits
    rw [hfalse, hch] at hflag
    cases hflag

/-- A timeout, a waiter that blocks, and an update that comes back in time: the waiter is
    still at its `select`, and its channel has been closed. -/
def timeoutAndBack : List (Label Unit) :=
  [.timeoutEvent, .loop 200, .loop 200, .loop 200, .loop 200, .loop 200, .loop 200,
   .call 0, .wait 0, .wait 0,
   .updateNow, .loop 300, .loop 300, .loop 300, .loop 300, .loop 300, .loop 300]

theorem timeoutAndBack_wakes :
    ∃ s : State Unit, (checkerRuns Unit 100 0).Reachable s ∧ s.loop = .idle ∧
      s.timeoutFlag = false ∧ (s.waiters 0).pc = .select 0 ∧ s.closes 0 = 1 := by
  obtain ⟨s, hrun, hidle, hflag, hpc⟩ : ∃ s : State Unit,
      runLabels next (new 100 0) timeoutAndBack = some s ∧
        s.loop = .idle ∧ s.timeoutFlag = false ∧ (s.waiters 0).pc = .select 0 :=
    exists_of_runLabels (by decide +kernel)
  have hs : (checkerRuns Unit 100 0).Reachable s :=
    .of_runLabels (fun _ _ _ h => h) (.init rfl) hrun
  have hrest := (idle_flag_iff_channel 100 0 hs).1 hidle
  exact ⟨s, hs, hidle, hflag, hpc, hrest.2.2.2 hflag 0 0 hpc⟩

end Checker
