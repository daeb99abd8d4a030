import Tssh.Checker.Events
import Mathlib.Data.List.Perm.Basic

/-! # Callbacks across a Detach and an Attach

    A session keeps its callbacks in a `replaceableTimeoutChecker` (`tsshd/attach.go`) and moves
    them to the checker of each client that attaches.  `swap` holds the mutex of the replaceable
    checker and does, for a new checker after a detach:

    * it reads the flag of the new checker, and where that is false starts every callback;
    * it registers a wrapper of every callback with the new checker.  A wrapper starts its
      callback only if no other `swap` has happened since.

    The flag belongs to the event loop of the new checker, which goes on meanwhile.  If the flag
    was true when it was read, and the reconnect is notified before the wrappers are registered,
    nothing starts the callbacks that were still missing then.  In the runs in which no
    notification falls into that gap they are all started (`attach_starts_callbacks`).
-/

open LTS

namespace CheckerAttach

/-! ## State -/

/-- `wrapCallback(cb, gen)`. -/
structure Wrapper where
  cb : Nat
  gen : Nat
  deriving DecidableEq, Repr

/-- Where the replaceable checker is: with an old checker, without one, in the `swap` to the new
    one, or with the new one.  `start` and `register` are the two loops with the callbacks still
    to be treated; `direct` is whether the first loop was taken. -/
inductive Phase where
  | old
  | detached
  | test
  | start (rest : List Nat)
  | register (direct : Bool) (rest : List Nat)
  | attached (direct : Bool)
  deriving DecidableEq, Repr

/-- `swap` holds the mutex. -/
def Phase.locked : Phase → Bool
  | .test => true
  | .start _ => true
  | .register _ _ => true
  | _ => false

/-- The flag of the new checker has been read. -/
def Phase.tested : Phase → Bool
  | .start _ => true
  | .register _ _ => true
  | .attached _ => true
  | _ => false

/-- The replaceable checker and the new checker `tc`.  `registering` are the calls of
    `onReconnected` between their two halves, and `wrappers` the wrapper goroutines that have
    not run yet.  Three fields are history: `before` are the callbacks there were when the
    attach began, `started` the callbacks started since then, and `sawUp` is whether the new
    checker was not timed out when the attach read its flag or at some moment after that. -/
structure State where
  tc : Checker.State Wrapper
  phase : Phase
  gen : Nat
  callbacks : List Nat
  registering : List Wrapper
  wrappers : List Wrapper
  before : List Nat
  started : List Nat
  sawUp : Bool

def start (heartbeatTimeout now : Int) : State where
  tc := Checker.new heartbeatTimeout now
  phase := .old
  gen := 0
  callbacks := []
  registering := []
  wrappers := []
  before := []
  started := []
  sawUp := false

/-! ## Steps -/

/-- A step of the new checker; `swap(nil)`; the beginning of `swap(tc)` and its next step; the
    two halves of `onReconnected`; a wrapper that an old checker starts; a wrapper that runs. -/
inductive Label where
  | checker (l : Checker.Label Wrapper)
  | detach
  | attach
  | swap
  | onReconnected (cb : Nat)
  | registered
  | oldWrapper (w : Wrapper)
  | wrapper (k : Nat)

/-- The callbacks of the new checker are registered by this session only. -/
def own : Checker.Label Wrapper → Bool
  | .onTimeout _ => false
  | .onReconnected _ => false
  | _ => true

/-- `newChecker.onReconnected(w)`. -/
def State.addCallback (s : State) (w : Wrapper) : State :=
  { s with tc := { s.tc with reconnectedCallbacks := s.tc.reconnectedCallbacks ++ [w] } }

/-- The next step of `swap`. -/
def swapStep (s : State) : Option State :=
  match s.phase with
  | .test =>
    -- found up: the callbacks are started here and then registered; else only registered
    some { s with
      phase := if s.tc.timeoutFlag then .register false s.callbacks else .start s.callbacks
      sawUp := !s.tc.timeoutFlag }
  | .start (cb :: rest) => some { s with phase := .start rest, started := s.started ++ [cb] }
  | .start [] => some { s with phase := .register true s.callbacks }
  | .register direct (cb :: rest) =>
    some { s.addCallback ⟨cb, s.gen⟩ with phase := .register direct rest }
  | .register direct [] => some { s with phase := .attached direct }
  | _ => none

def next (s : State) : Label → Option State
  | .checker l =>
    if own l then
      (Checker.next s.tc l).map fun tc =>
        { s with
          tc := tc
          wrappers := s.wrappers ++ tc.started.drop s.tc.started.length
          sawUp := s.sawUp || (s.phase.tested && !tc.timeoutFlag) }
    else none
  | .detach => enabledIf (s.phase = .old) { s with phase := .detached, gen := s.gen + 1 }
  | .attach =>
    enabledIf (s.phase = .detached)
      { s with phase := .test, gen := s.gen + 1, before := s.callbacks, started := [] }
  | .swap => swapStep s
  | .onReconnected cb =>
    enabledIf (s.phase.locked = false)
      { s with
        callbacks := s.callbacks ++ [cb]
        registering := if s.phase.tested then s.registering ++ [⟨cb, s.gen⟩]
          else s.registering }
  | .registered =>
    match s.registering with
    | [] => none
    | w :: rest => some { s.addCallback w with registering := rest }
  | .oldWrapper w =>
    enabledIf (w.gen < s.gen ∨ (w.gen = s.gen ∧ s.phase = .old))
      { s with wrappers := s.wrappers ++ [w] }
  | .wrapper k =>
    match s.wrappers[k]? with
    | none => none
    | some w =>
      -- the wrapper of an older attach finds another checker and does nothing
      enabledIf (s.phase.locked = false)
        { s with
          wrappers := s.wrappers.eraseIdx k
          started := if w.gen = s.gen then s.started ++ [w.cb] else s.started }

/-- One detach and one attach, with any events of the new checker. -/
def attachRuns (heartbeatTimeout now : Int) : System State Label :=
  .ofStep (start heartbeatTimeout now) next

/-- The new checker was found timed out, and some callbacks are not registered with it yet. -/
def Phase.gap : Phase → Bool
  | .register false (_ :: _) => true
  | _ => false

/-- No reconnect is notified in the gap. -/
def NoNotifyInGap (s : State) (l : Label) : Prop :=
  match l with
  | .checker .notifyReconnected => s.phase.gap = false
  | _ => True

instance (s : State) (l : Label) : Decidable (NoNotifyInGap s l) := by
  unfold NoNotifyInGap
  split <;> infer_instance

/-- All that was begun has ended: the attach, the event of the loop, the notifications and the
    wrappers. -/
structure Quiet (s : State) : Prop where
  attached : s.phase = .attached true ∨ s.phase = .attached false
  loop : s.tc.loop = .idle ∨ s.tc.loop = .ended
  notified : s.tc.reconnecting = 0
  wrappers : s.wrappers = []

/-! ## The new checker -/

/-- The loop has cleared the flag and not yet started the notification. -/
def notifies : Checker.Loop → Bool
  | .swapNil => true
  | .closeCh _ => true
  | .goReconnected => true
  | _ => false

/-- A notification is on its way. -/
def Due (tc : Checker.State Wrapper) : Prop := notifies tc.loop = true ∨ 0 < tc.reconnecting

variable {hb now : Int} {s s' : State} {tc : Checker.State Wrapper} {b : List Nat} {n : Nat}

/-- A loop step keeps a notification on its way, and a flag that it clears puts one there. -/
theorem loopStep_due {tc tc' : Checker.State Wrapper} (h : Checker.loopStep tc now = some tc') :
    (Due tc → Due tc') ∧ (tc'.timeoutFlag = false → tc.timeoutFlag = false ∨ Due tc') ∧
      tc'.reconnectedCallbacks = tc.reconnectedCallbacks := by
  unfold Due
  unfold Checker.loopStep at h
  cases hloop : tc.loop with
  | idle =>
    rw [hloop] at h
    cases h
  | ended =>
    rw [hloop] at h
    cases h
  | clearFlag =>
    rw [hloop] at h
    cases h
    exact ⟨fun _ => .inl rfl, fun _ => .inr (.inl rfl), rfl⟩
  | swapNil | closeCh ch =>
    rw [hloop] at h
    cases h
    exact ⟨fun _ => .inl rfl, .inl, rfl⟩
  | goReconnected =>
    rw [hloop] at h
    cases h
    exact ⟨fun _ => .inr (Nat.succ_pos _), .inl, rfl⟩
  | setFlag =>
    rw [hloop] at h
    cases h
    exact ⟨fun hdue => .inr (hdue.resolve_left nofun), nofun, rfl⟩
  | _ =>
    rw [hloop] at h
    cases h
    exact ⟨fun hdue => .inr (hdue.resolve_left nofun), .inl, rfl⟩

/-- What a step of the new checker does here. -/
inductive CheckerStep (l : Checker.Label Wrapper) (tc tc' : Checker.State Wrapper) : Prop where
  | notify (hl : l = .notifyReconnected)
      (hstarted : tc'.started = tc.started ++ tc.reconnectedCallbacks)
      (hflag : tc'.timeoutFlag = tc.timeoutFlag)
  | other (hdue : Due tc → Due tc')
      (hflag : tc'.timeoutFlag = false → tc.timeoutFlag = false ∨ Due tc')

theorem checker_step {l : Checker.Label Wrapper} {tc tc' : Checker.State Wrapper}
    (hown : own l = true) (h : Checker.next tc l = some tc') :
    CheckerStep l tc tc' ∧ tc'.reconnectedCallbacks = tc.reconnectedCallbacks := by
  cases l with
  | loop now =>
    obtain ⟨hdue, hflag, hcallbacks⟩ := loopStep_due h
    exact ⟨.other hdue hflag, hcallbacks⟩
  | updateNow | updateTime msec | timeoutEvent =>
    obtain ⟨hidle, rfl⟩ := enabledIf_eq_some h
    exact ⟨.other (fun hdue => .inr (hdue.resolve_left (by rw [hidle]; nofun))) .inl, rfl⟩
  | loopEnd =>
    obtain ⟨⟨hidle, -⟩, rfl⟩ := enabledIf_eq_some h
    exact ⟨.other (fun hdue => .inr (hdue.resolve_left (by rw [hidle]; nofun))) .inl, rfl⟩
  | notifyReconnected =>
    obtain ⟨-, rfl⟩ := enabledIf_eq_some h
    exact ⟨.notify rfl rfl rfl, rfl⟩
  | notifyTimeout =>
    obtain ⟨-, rfl⟩ := enabledIf_eq_some h
    exact ⟨.other id .inl, rfl⟩
  | wait i =>
    obtain ⟨pc, -, rfl⟩ := Option.map_eq_some_iff.mp h
    exact ⟨.other id .inl, rfl⟩
  | close =>
    cases h
    exact ⟨.other id .inl, rfl⟩
  | onTimeout cb => cases hown
  | onReconnected cb => cases hown
  | _ =>
    obtain ⟨-, rfl⟩ := enabledIf_eq_some h
    exact ⟨.other id .inl, rfl⟩

/-! ## The invariant -/

/-- The callback was started, or its wrapper is about to run, or a notification is on its
    way. -/
def Served (s : State) (cb : Nat) : Prop :=
  cb ∈ s.started ∨ ⟨cb, s.gen⟩ ∈ s.wrappers ∨ Due s.tc

/-- The wrappers that are registered with the new checker in a phase. -/
def Registered (s : State) : Phase → Prop
  | .register _ rest =>
    ∀ cb ∈ s.before, cb ∈ rest ∨ ⟨cb, s.gen⟩ ∈ s.tc.reconnectedCallbacks
  | .attached _ => ∀ cb ∈ s.before, ⟨cb, s.gen⟩ ∈ s.tc.reconnectedCallbacks
  | _ => True

/-- What has been done for the callbacks in a phase.  In the gap it can only be a notification that is on
    its way: a wrapper that is not registered will not be found. -/
def Progress (s : State) : Phase → Prop
  | .start rest => ∀ cb ∈ s.before, cb ∈ s.started ∨ cb ∈ rest
  | .register true _ => ∀ cb ∈ s.before, cb ∈ s.started
  | .attached true => ∀ cb ∈ s.before, cb ∈ s.started
  | .register false (_ :: _) => s.sawUp = true → Due s.tc
  | .register false [] => s.sawUp = true → ∀ cb ∈ s.before, Served s cb
  | .attached false => s.sawUp = true → ∀ cb ∈ s.before, Served s cb
  | _ => True

structure Inv (s : State) : Prop where
  locked : s.phase.locked = true → s.callbacks = s.before
  up : s.phase.tested = true → s.sawUp = false → s.tc.timeoutFlag = true
  registered : Registered s s.phase
  progress : Progress s s.phase

theorem Registered.mono {p : Phase} (h : Registered s p) (hbefore : s'.before = s.before)
    (hgen : s'.gen = s.gen)
    (hsub : ∀ w ∈ s.tc.reconnectedCallbacks, w ∈ s'.tc.reconnectedCallbacks) :
    Registered s' p := by
  cases p with
  | register direct rest =>
    intro cb hcb
    rw [hbefore] at hcb
    rw [hgen]
    exact (h cb hcb).imp_right (hsub _)
  | attached direct =>
    intro cb hcb
    rw [hbefore] at hcb
    rw [hgen]
    exact hsub _ (h cb hcb)
  | _ => trivial

/-- The state after a step of the new checker. -/
def State.withChecker (s : State) (tc : Checker.State Wrapper) : State :=
  { s with
    tc := tc
    wrappers := s.wrappers ++ tc.started.drop s.tc.started.length
    sawUp := s.sawUp || (s.phase.tested && !tc.timeoutFlag) }

/-- Where the attach has read the flag, the history says so, and the flag was true as long as
    it did not. -/
theorem Inv.sawUp_withChecker (hinv : Inv s) (htested : s.phase.tested = true)
    (hup : (s.withChecker tc).sawUp = true) :
    s.sawUp = true ∨ (s.tc.timeoutFlag = true ∧ tc.timeoutFlag = false) := by
  cases hsaw : s.sawUp with
  | true => exact .inl rfl
  | false =>
    have hflag := hinv.up htested hsaw
    simp only [State.withChecker, hsaw, htested, Bool.false_or, Bool.true_and,
      Bool.not_eq_true'] at hup
    exact .inr ⟨hflag, hup⟩

/-- Outside of the gap, whatever was done for a callback stays done. -/
theorem Inv.served_withChecker (hinv : Inv s) {l : Checker.Label Wrapper}
    (hstep : CheckerStep l s.tc tc) (htested : s.phase.tested = true)
    (hregistered : ∀ cb ∈ s.before, ⟨cb, s.gen⟩ ∈ s.tc.reconnectedCallbacks)
    (hserved : s.sawUp = true → ∀ cb ∈ s.before, Served s cb)
    (hup : (s.withChecker tc).sawUp = true) : ∀ cb ∈ s.before, Served (s.withChecker tc) cb := by
  intro cb hcb
  cases hstep with
  | notify _ hstarted _ =>
    -- the wrapper is registered, so the notification starts it
    refine .inr (.inl (List.mem_append_right _ ?_))
    rw [hstarted, List.drop_left]
    exact hregistered cb hcb
  | other hdue hflag =>
    rcases hinv.sawUp_withChecker htested hup with hsaw | ⟨htrue, hfalse⟩
    · rcases hserved hsaw cb hcb with hstarted | hwrapper | hnotify
      · exact .inl hstarted
      · exact .inr (.inl (List.mem_append_left _ hwrapper))
      · exact .inr (.inr (hdue hnotify))
    · rcases hflag hfalse with hbefore | hnotify
      · rw [htrue] at hbefore
        cases hbefore
      · exact .inr (.inr hnotify)

theorem Inv.checker (hinv : Inv s) {l : Checker.Label Wrapper} (hown : own l = true)
    (h : Checker.next s.tc l = some tc) (hgap : l = .notifyReconnected → s.phase.gap = false) :
    Inv (s.withChecker tc) := by
  obtain ⟨hstep, hcallbacks⟩ := checker_step hown h
  refine ⟨hinv.locked, ?_, ?_, ?_⟩
  · intro htested hsaw
    have htested : s.phase.tested = true := htested
    simp only [State.withChecker, htested, Bool.true_and, Bool.or_eq_false_iff,
      Bool.not_eq_false'] at hsaw
    exact hsaw.2
  · have hregistered := hinv.registered
    exact hregistered.mono rfl rfl (fun w hw => hcallbacks ▸ hw)
  · have hregistered := hinv.registered
    have hprogress := hinv.progress
    have hsawUp := @Inv.sawUp_withChecker s tc hinv
    have hserved := @Inv.served_withChecker s tc hinv l hstep
    show Progress (s.withChecker tc) s.phase
    cases hphase : s.phase with
    | old => trivial
    | detached => trivial
    | test => trivial
    | start rest =>
      rw [hphase] at hprogress
      exact hprogress
    | register direct rest =>
      rw [hphase] at hprogress hregistered hserved hsawUp
      cases direct with
      | true => exact hprogress
      | false =>
        cases rest with
        | nil =>
          -- all callbacks are registered
          refine hserved rfl ?_ hprogress
          intro cb hcb
          exact (hregistered cb hcb).resolve_left nofun
        | cons cb rest =>
          intro hup
          cases hstep with
          | notify hl _ _ =>
            -- no notification in the gap, by the condition
            rw [hphase] at hgap
            cases hgap hl
          | other hdue hflag =>
            -- seen up before, or this step clears the flag, and a notification is due
            rcases hsawUp rfl hup with hsaw | ⟨htrue, hfalse⟩
            · exact hdue (hprogress hsaw)
            · rcases hflag hfalse with hbefore | hnotify
              · rw [htrue] at hbefore
                cases hbefore
              · exact hnotify
    | attached direct =>
      rw [hphase] at hprogress hregistered hserved
      cases direct with
      | true => exact hprogress
      | false => exact hserved rfl hregistered hprogress

/-- The steps of `swap`. -/
theorem Inv.swapStep (hinv : Inv s) (h : swapStep s = some s') : Inv s' := by
  have hregistered := hinv.registered
  have hprogress := hinv.progress
  have hlocked := hinv.locked
  have hflag := hinv.up
  unfold CheckerAttach.swapStep at h
  cases hphase : s.phase with
  | old =>
    rw [hphase] at h
    cases h
  | detached =>
    rw [hphase] at h
    cases h
  | attached direct =>
    rw [hphase] at h
    cases h
  | test =>
    rw [hphase] at h hlocked
    have hall : s.callbacks = s.before := hlocked rfl
    cases htimeout : s.tc.timeoutFlag with
    | true =>
      rw [htimeout] at h
      cases h
      refine ⟨fun _ => hall, fun _ _ => htimeout, ?_, ?_⟩
      · intro cb hcb
        exact .inl (hall ▸ hcb)
      · show Progress _ (.register false s.callbacks)
        cases s.callbacks with
        | nil => nofun
        | cons cb rest => nofun
    | false =>
      rw [htimeout] at h
      cases h
      refine ⟨fun _ => hall, nofun, trivial, ?_⟩
      intro cb hcb
      exact .inr (hall ▸ hcb)
  | start rest =>
    rw [hphase] at h hprogress hlocked hflag
    have hall : s.callbacks = s.before := hlocked rfl
    cases rest with
    | nil =>
      cases h
      refine ⟨fun _ => hall, fun _ => hflag rfl, ?_, ?_⟩
      · intro cb hcb
        exact .inl (hall ▸ hcb)
      · intro cb hcb
        exact (hprogress cb hcb).resolve_right nofun
    | cons cb rest =>
      cases h
      refine ⟨fun _ => hall, fun _ => hflag rfl, trivial, ?_⟩
      intro x hx
      rcases hprogress x hx with hstarted | hrest
      · exact .inl (List.mem_append_left _ hstarted)
      · rcases List.mem_cons.mp hrest with rfl | hrest
        · exact .inl (List.mem_append_right _ List.mem_cons_self)
        · exact .inr hrest
  | register direct rest =>
    rw [hphase] at h hprogress hlocked hflag hregistered
    have hall : s.callbacks = s.before := hlocked rfl
    cases rest with
    | nil =>
      cases h
      refine ⟨nofun, fun _ => hflag rfl, ?_, ?_⟩
      · intro cb hcb
        exact (hregistered cb hcb).resolve_left nofun
      · cases direct with
        | true => exact hprogress
        | false => exact hprogress
    | cons cb rest =>
      cases h
      refine ⟨fun _ => hall, fun _ => hflag rfl, ?_, ?_⟩
      · intro x hx
        rcases hregistered x hx with hrest | hdone
        · rcases List.mem_cons.mp hrest with rfl | hrest
          · exact .inr (List.mem_append_right _ List.mem_cons_self)
          · exact .inl hrest
        · exact .inr (List.mem_append_left _ hdone)
      · cases direct with
        | true => exact hprogress
        | false =>
          -- the gap closes with the last callback; the notification is still on its way
          cases rest with
          | nil => exact fun hup x _ => .inr (.inr (hprogress hup))
          | cons cb' rest => exact hprogress

/-- Steps that only add to what the callbacks need. -/
theorem Inv.grow (hinv : Inv s) (hphase : s'.phase = s.phase) (hgen : s'.gen = s.gen)
    (hbefore : s'.before = s.before) (hsaw : s'.sawUp = s.sawUp)
    (hflag : s'.tc.timeoutFlag = s.tc.timeoutFlag) (hdue : Due s.tc → Due s'.tc)
    (hcallbacks : s.phase.locked = true → s'.callbacks = s.callbacks)
    (hregistered : ∀ w ∈ s.tc.reconnectedCallbacks, w ∈ s'.tc.reconnectedCallbacks)
    (hstarted : ∀ cb ∈ s.started, cb ∈ s'.started)
    (hwrappers : ∀ w ∈ s.wrappers, w ∈ s'.wrappers ∨ (w.gen = s.gen → w.cb ∈ s'.started)) :
    Inv s' := by
  have hserved : ∀ cb, Served s cb → Served s' cb := by
    intro cb h
    rcases h with h | h | h
    · exact .inl (hstarted cb h)
    · rcases hwrappers _ h with h | h
      · exact .inr (.inl (hgen ▸ h))
      · exact .inl (h rfl)
    · exact .inr (.inr (hdue h))
  refine ⟨?_, ?_, ?_, ?_⟩
  · intro hlocked
    rw [hphase] at hlocked
    rw [hcallbacks hlocked, hbefore]
    exact hinv.locked hlocked
  · rw [hphase, hsaw, hflag]
    exact hinv.up
  · rw [hphase]
    exact hinv.registered.mono hbefore hgen hregistered
  · have h := hinv.progress
    rw [hphase]
    cases hp : s.phase with
    | start rest =>
      rw [hp] at h
      exact fun cb hcb => (h cb (hbefore ▸ hcb)).imp_left (hstarted cb)
    | register direct rest =>
      rw [hp] at h
      cases direct with
      | true => exact fun cb hcb => hstarted cb (h cb (hbefore ▸ hcb))
      | false =>
        cases rest with
        | nil => exact fun hup cb hcb => hserved cb (h (hsaw ▸ hup) cb (hbefore ▸ hcb))
        | cons cb rest => exact fun hup => hdue (h (hsaw ▸ hup))
    | attached direct =>
      rw [hp] at h
      cases direct with
      | true => exact fun cb hcb => hstarted cb (h cb (hbefore ▸ hcb))
      | false => exact fun hup cb hcb => hserved cb (h (hsaw ▸ hup) cb (hbefore ▸ hcb))
    | _ => trivial

theorem mem_eraseIdx_or {α : Type} {l : List α} {k : Nat} {a b : α} (hk : l[k]? = some b)
    (ha : a ∈ l) : a ∈ l.eraseIdx k ∨ a = b := by
  obtain ⟨hlt, rfl⟩ := List.getElem?_eq_some_iff.mp hk
  rcases List.mem_cons.mp ((List.getElem_cons_eraseIdx_perm hlt).mem_iff.mpr ha) with h | h
  · exact .inr h
  · exact .inl h

theorem Inv.next {l : Label} (hinv : Inv s) (hok : NoNotifyInGap s l) (h : next s l = some s') :
    Inv s' := by
  cases l with
  | checker l =>
    obtain ⟨hown, h⟩ := Option.ite_none_right_eq_some.mp h
    obtain ⟨tc, htc, rfl⟩ := Option.map_eq_some_iff.mp h
    refine hinv.checker hown htc ?_
    rintro rfl
    exact hok
  | detach =>
    obtain ⟨-, rfl⟩ := enabledIf_eq_some h
    exact ⟨nofun, nofun, trivial, trivial⟩
  | attach =>
    obtain ⟨-, rfl⟩ := enabledIf_eq_some h
    exact ⟨fun _ => rfl, nofun, trivial, trivial⟩
  | swap => exact hinv.swapStep h
  | onReconnected cb =>
    obtain ⟨hfree, rfl⟩ := enabledIf_eq_some h
    refine hinv.grow rfl rfl rfl rfl rfl id ?_ (fun _ h => h) (fun _ h => h) (fun _ h => .inl h)
    intro hlocked
    rw [hfree] at hlocked
    cases hlocked
  | registered =>
    simp only [CheckerAttach.next] at h
    split at h
    · cases h
    · cases h
      exact hinv.grow rfl rfl rfl rfl rfl id (fun _ => rfl)
        (fun _ h => List.mem_append_left _ h) (fun _ h => h) (fun _ h => .inl h)
  | oldWrapper w =>
    obtain ⟨-, rfl⟩ := enabledIf_eq_some h
    exact hinv.grow rfl rfl rfl rfl rfl id (fun _ => rfl) (fun _ h => h) (fun _ h => h)
      (fun _ h => .inl (List.mem_append_left _ h))
  | wrapper k =>
    simp only [CheckerAttach.next] at h
    split at h
    · cases h
    · next w hw =>
      obtain ⟨-, rfl⟩ := enabledIf_eq_some h
      refine hinv.grow rfl rfl rfl rfl rfl id (fun _ => rfl) (fun _ h => h) ?_ ?_
      · intro cb hcb
        dsimp only
        split
        · exact List.mem_append_left _ hcb
        · exact hcb
      · intro w' hw'
        rcases mem_eraseIdx_or hw hw' with hleft | rfl
        · exact .inl hleft
        · -- this is the wrapper that runs
          refine .inr (fun hgen => ?_)
          rw [if_pos hgen]
          exact List.mem_append_right _ List.mem_cons_self

theorem inv_of_reachable (hs : ((attachRuns hb now).restrict NoNotifyInGap).Reachable s) :
    Inv s := by
  refine System.invariant_restrict ?_ (fun _ _ _ h => h.next) hs
  exact ⟨nofun, nofun, trivial, trivial⟩

/-- In a quiet state nothing is on its way any more. -/
theorem Inv.started_of_quiet (hinv : Inv s) (hquiet : Quiet s) (hup : s.sawUp = true) :
    ∀ cb ∈ s.before, cb ∈ s.started := by
  intro cb hcb
  have hprogress := hinv.progress
  rcases hquiet.attached with hphase | hphase
  · rw [hphase] at hprogress
    exact hprogress cb hcb
  · rw [hphase] at hprogress
    rcases hprogress hup cb hcb with hstarted | hwrapper | hloop | hnotify
    · exact hstarted
    · rw [hquiet.wrappers] at hwrapper
      cases hwrapper
    · rcases hquiet.loop with hidle | hended
      · rw [hidle] at hloop
        cases hloop
      · rw [hended] at hloop
        cases hloop
    · rw [hquiet.notified] at hnotify
      exact absurd hnotify (Nat.lt_irrefl 0)

/-! ## Settling -/

/-- The steps that finish what was begun: the loop, the notifications and the wrappers. -/
def Internal : Label → Prop
  | .checker (.loop _) => True
  | .checker .notifyReconnected => True
  | .wrapper _ => True
  | _ => False

/-- An attached session in which the history of the attach is settled. -/
structure Waiting (before : List Nat) (count : Nat) (s : State) : Prop where
  attached : s.phase = .attached true ∨ s.phase = .attached false
  before : s.before = before
  up : s.sawUp = true
  count : s.tc.reconnectedCallbacks.length = count

theorem Waiting.free (h : Waiting b n s) : s.phase.locked = false ∧ s.phase.gap = false := by
  rcases h.attached with hphase | hphase
  · rw [hphase]
    exact ⟨rfl, rfl⟩
  · rw [hphase]
    exact ⟨rfl, rfl⟩

/-- What is left to do: a notification starts `count` wrappers, and the loop starts one
    notification at most. -/
def todo (count : Nat) (s : State) : Nat :=
  s.wrappers.length + (count + 1) * s.tc.reconnecting + (count + 2) * s.tc.loop.rank

theorem Waiting.step_loop (h : Waiting b n s) (hrank : s.tc.loop.rank ≠ 0) :
    ∃ s', ((attachRuns hb now).restrict NoNotifyInGap).step s (.checker (.loop 0)) s' ∧
      Waiting b n s' ∧ todo n s' < todo n s := by
  obtain ⟨tc, hstep, hlt⟩ := Checker.loopStep_of_rank s.tc 0 hrank
  obtain ⟨hone, hstarted, hcallbacks⟩ := Checker.loopStep_reconnecting hstep
  have hnext : next s (.checker (.loop 0)) = some (s.withChecker tc) := by
    simp [next, own, Checker.next, hstep, State.withChecker]
  refine ⟨s.withChecker tc, ⟨trivial, hnext⟩, ⟨h.attached, h.before, ?_, ?_⟩, ?_⟩
  · rw [State.withChecker, h.up, Bool.true_or]
  · rw [State.withChecker, hcallbacks]
    exact h.count
  · have hwrappers : (s.withChecker tc).wrappers = s.wrappers := by
      rw [State.withChecker, hstarted, List.drop_length, List.append_nil]
    have hreconnecting : (n + 1) * tc.reconnecting ≤ (n + 1) * (s.tc.reconnecting + 1) :=
      Nat.mul_le_mul_left _ hone
    have hloop : (n + 2) * (tc.loop.rank + 1) ≤ (n + 2) * s.tc.loop.rank :=
      Nat.mul_le_mul_left _ hlt
    rw [Nat.mul_add, Nat.mul_one] at hreconnecting hloop
    unfold todo
    rw [hwrappers]
    show s.wrappers.length + (n + 1) * tc.reconnecting + (n + 2) * tc.loop.rank < _
    omega

theorem Waiting.step_notify (h : Waiting b n s) (hdue : 0 < s.tc.reconnecting) :
    ∃ s', ((attachRuns hb now).restrict NoNotifyInGap).step s (.checker .notifyReconnected) s' ∧
      Waiting b n s' ∧ todo n s' < todo n s := by
  obtain ⟨tc, hnotify⟩ : ∃ tc, Checker.next s.tc .notifyReconnected = some tc :=
    ⟨_, if_pos hdue⟩
  have hnext : next s (.checker .notifyReconnected) = some (s.withChecker tc) := by
    simp [next, own, hnotify, State.withChecker]
  obtain ⟨-, rfl⟩ := enabledIf_eq_some hnotify
  refine ⟨_, ⟨h.free.2, hnext⟩, ⟨h.attached, h.before, ?_, h.count⟩, ?_⟩
  · rw [State.withChecker, h.up, Bool.true_or]
  · obtain ⟨m, hm⟩ := Nat.exists_eq_add_of_lt hdue
    simp only [todo, State.withChecker, List.drop_left, List.length_append, h.count]
    rw [hm, Nat.zero_add, Nat.add_sub_cancel, Nat.mul_add (n + 1) m 1, Nat.mul_one]
    omega

theorem Waiting.step_wrapper (h : Waiting b n s) (hwrappers : s.wrappers ≠ []) :
    ∃ s', ((attachRuns hb now).restrict NoNotifyInGap).step s (.wrapper 0) s' ∧
      Waiting b n s' ∧ todo n s' < todo n s := by
  cases hw : s.wrappers with
  | nil => exact absurd hw hwrappers
  | cons w rest =>
    obtain ⟨s', hs'⟩ : ∃ s', next s (.wrapper 0) = some s' := by
      simp [next, hw, enabledIf, h.free.1]
    have hend := hs'
    simp only [next, hw, List.getElem?_cons_zero] at hend
    obtain ⟨-, rfl⟩ := enabledIf_eq_some hend
    refine ⟨_, ⟨trivial, hs'⟩, ⟨h.attached, h.before, h.up, h.count⟩, ?_⟩
    simp only [todo, hw, List.eraseIdx_cons_zero, List.length_cons]
    omega

/-- From an attached session the internal steps lead to a quiet state. -/
theorem Waiting.settles (hb now : Int) (h : Waiting b n s) :
    ∃ ls s', (∀ l ∈ ls, Internal l) ∧
      ((attachRuns hb now).restrict NoNotifyInGap).Run s ls s' ∧ Waiting b n s' ∧ Quiet s' := by
  apply System.exists_run_of_measure _ (todo n) _ h
  intro s h hnot
  by_cases hrank : s.tc.loop.rank = 0
  · by_cases hdue : s.tc.reconnecting = 0
    · by_cases hwrappers : s.wrappers = []
      · refine absurd ⟨h.attached, ?_, hdue, hwrappers⟩ hnot
        cases hloop : s.tc.loop with
        | idle => exact .inl rfl
        | ended => exact .inr rfl
        | _ =>
          rw [hloop] at hrank
          cases hrank
      · obtain ⟨s', hstep, hw, hlt⟩ := h.step_wrapper hwrappers
        exact ⟨.wrapper 0, s', trivial, hstep, hw, hlt⟩
    · obtain ⟨s', hstep, hw, hlt⟩ := h.step_notify (Nat.pos_of_ne_zero hdue)
      exact ⟨.checker .notifyReconnected, s', trivial, hstep, hw, hlt⟩
  · obtain ⟨s', hstep, hw, hlt⟩ := h.step_loop hrank
    exact ⟨.checker (.loop 0), s', trivial, hstep, hw, hlt⟩

/-! ## Results -/

/-- **Callbacks after an attach**: let no notification fall into the gap, and let the new
    checker not be timed out when the attach reads its flag or at some moment after that.  Then
    every callback from before the attach has been started once nothing is on its way any more,
    and what is on its way leads there. -/
theorem attach_starts_callbacks (hb now : Int) {s : State}
    (hs : ((attachRuns hb now).restrict NoNotifyInGap).Reachable s)
    (hattached : s.phase = .attached true ∨ s.phase = .attached false)
    (hup : s.sawUp = true) :
    (Quiet s → ∀ cb ∈ s.before, cb ∈ s.started) ∧
      ∃ ls s', (∀ l ∈ ls, Internal l) ∧
        ((attachRuns hb now).restrict NoNotifyInGap).Run s ls s' ∧ Quiet s' ∧
        ∀ cb ∈ s.before, cb ∈ s'.started := by
  refine ⟨fun hquiet => (inv_of_reachable hs).started_of_quiet hquiet hup, ?_⟩
  have hwaiting : Waiting s.before s.tc.reconnectedCallbacks.length s :=
    ⟨hattached, rfl, hup, rfl⟩
  obtain ⟨ls, s', hls, hrun, hw, hquiet⟩ := hwaiting.settles hb now
  refine ⟨ls, s', hls, hrun, hquiet, ?_⟩
  rw [← hw.before]
  exact (inv_of_reachable (hrun.reachable hs)).started_of_quiet hquiet hw.up

/-- One step of the event loop of the new checker, at time `200`. -/
def tick : Label := .checker (.loop 200)

/-- The new checker times out; a callback is registered, and the session is detached.  Then the
    attach finds the new checker timed out. -/
def attachTimedOut : List Label :=
  [.checker .timeoutEvent, tick, tick, tick, tick, tick, tick,
   .onReconnected 7, .detach, .attach, .swap]

/-- The new checker reconnects and starts the notification. -/
def reconnect : List Label :=
  [.checker .updateNow, tick, tick, tick, tick, tick, tick]

/-- The notification runs before the callback is registered. -/
def missedNotify : List Label :=
  attachTimedOut ++ reconnect ++ [.checker .notifyReconnected, .swap, .swap]

instance (s : State) : Decidable (Quiet s) :=
  decidable_of_iff
    ((s.phase = .attached true ∨ s.phase = .attached false) ∧
      (s.tc.loop = .idle ∨ s.tc.loop = .ended) ∧ s.tc.reconnecting = 0 ∧ s.wrappers = [])
    ⟨fun ⟨h1, h2, h3, h4⟩ => ⟨h1, h2, h3, h4⟩,
     fun h => ⟨h.attached, h.loop, h.notified, h.wrappers⟩⟩

/-- All is over, the new checker is not timed out, and the callback was not started. -/
theorem missedNotify_loses_callback :
    ∃ s, (attachRuns 100 0).Reachable s ∧ Quiet s ∧ s.tc.timeoutFlag = false ∧
      s.sawUp = true ∧ s.before = [7] ∧ s.started = [] := by
  obtain ⟨s, hrun, hend⟩ : ∃ s, runLabels next (start 100 0) missedNotify = some s ∧
      Quiet s ∧ s.tc.timeoutFlag = false ∧ s.sawUp = true ∧ s.before = [7] ∧
      s.started = [] := exists_of_runLabels (by decide +kernel)
  exact ⟨s, .of_runLabels (fun _ _ _ h => h) (.init rfl) hrun, hend⟩

/-- The notification runs after the callback is registered, and so does the wrapper. -/
theorem lateNotify_starts_callback :
    ∃ s, ((attachRuns 100 0).restrict NoNotifyInGap).Reachable s ∧ s.before = [7] ∧
      Quiet s ∧ ∀ cb ∈ s.before, cb ∈ s.started := by
  obtain ⟨s, hrun, hbefore, hup, hquiet⟩ :
      ∃ s, runLabels (fun s l => if NoNotifyInGap s l then next s l else none) (start 100 0)
        (attachTimedOut ++ reconnect ++ [.swap, .swap, .checker .notifyReconnected, .wrapper 0])
          = some s ∧ s.before = [7] ∧ s.sawUp = true ∧ Quiet s :=
    exists_of_runLabels (by decide +kernel)
  have hs := System.Reachable.of_runLabels_restrict hrun
  exact ⟨s, hs, hbefore, hquiet, (attach_starts_callbacks 100 0 hs hquiet.attached hup).1 hquiet⟩

end CheckerAttach
