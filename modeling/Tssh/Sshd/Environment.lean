import Tssh.Sshd.MatchLine

/-! # The Environment of a Session

    `getEnvironments` (`tsshd/session.go`) builds the environment of a session's program from
    the variables the client sends and the environment of the server.  A client variable is
    accepted if its name is `TERM` or matches a pattern of `AcceptEnv`; a server variable is
    passed on unless an accepted client variable has its name.

    The operating system takes an entry's name to be the text before the first `=`, and the
    last entry of a name counts (`lookup`).  A client chooses its names freely, so a name may
    contain `=` itself.

    * `lookup_getEnvironments`: the value of every variable of the program.
    * `environment_protected_iff`: which names let a client set a variable that no pattern
      accepts, or lose a variable of the server; `protected_of_plain_names`: names without `=`
      and without blanks around them do not.
-/

namespace Sshd

/-! ## Building the environment -/

/-- `kEnvTsshdBackground`. -/
def backgroundName : Text := "TRZSZ-SSHD-BACKGROUND".toList

/-- `acceptEnvRegexp.MatchString`: the expression has one alternative for each pattern, and
    without patterns there is no expression. -/
def acceptEnv (patterns : List Text) (name : Text) : Bool := patterns.any (wildcardMatch · name)

/-- The client variables that are accepted.  Go visits the map `msg.Envs` in any order: `vars`
    is that order. -/
def accepted (patterns : List Text) (vars : List (Text × Text)) : List (Text × Text) :=
  vars.filter fun v => v.1 = "TERM".toList || acceptEnv patterns v.1

/-- `fmt.Sprintf("%s=%s", name, value)`. -/
def entry (v : Text × Text) : Text := v.1 ++ '=' :: v.2

/-- Whether an entry of the server's environment is passed on; `acceptMap` are the names of the
    accepted client variables. -/
def passesOn (acceptMap : List Text) (env : Text) : Bool :=
  '=' ∈ env && beforeEq env ≠ [] && trimSpace (beforeEq env) ≠ backgroundName &&
    trimSpace (beforeEq env) ∉ acceptMap

def getEnvironments (patterns : List Text) (vars : List (Text × Text)) (environ : List Text) :
    List Text :=
  (accepted patterns vars).map entry ++
    environ.filter (passesOn ((accepted patterns vars).map (·.1)))

/-! ## Reading an environment -/

/-- The value an entry gives to the variable `name`. -/
def valueOf (name env : Text) : Option Text :=
  if '=' ∈ env ∧ beforeEq env = name then some (afterEq env) else none

/-- The value of a variable: the one of the last entry for its name. -/
def lookup (env : List Text) (name : Text) : Option Text := (env.filterMap (valueOf name)).getLast?

theorem lookup_append (a b : List Text) (name : Text) :
    lookup (a ++ b) name = (lookup b name).or (lookup a name) := by
  rw [lookup, List.filterMap_append, List.getLast?_append]
  rfl

/-- The name of an entry that the server passes on. -/
def nameKept (acceptMap : List Text) (name : Text) : Prop :=
  name ≠ [] ∧ trimSpace name ≠ backgroundName ∧ trimSpace name ∉ acceptMap

instance (acceptMap : List Text) (name : Text) : Decidable (nameKept acceptMap name) :=
  inferInstanceAs (Decidable (_ ∧ _ ∧ _))

/-- Whether an entry is passed on depends on its name only. -/
theorem passesOn_iff {acceptMap : List Text} {name env value : Text}
    (h : valueOf name env = some value) :
    passesOn acceptMap env = true ↔ nameKept acceptMap name := by
  rw [valueOf] at h
  split at h
  · next henv =>
    obtain ⟨heq, rfl⟩ := henv
    simp [passesOn, nameKept, heq, and_assoc]
  · cases h

theorem lookup_filter_passesOn (acceptMap environ : List Text) (name : Text) :
    lookup (environ.filter (passesOn acceptMap)) name =
      if nameKept acceptMap name then lookup environ name else none := by
  have hpoint : ∀ env, (if passesOn acceptMap env then valueOf name env else none) =
      if nameKept acceptMap name then valueOf name env else none := by
    intro env
    cases hval : valueOf name env with
    | none => simp
    | some value => simp only [passesOn_iff hval]
  rw [lookup, List.filterMap_filter, funext hpoint]
  by_cases hkept : nameKept acceptMap name
  · simp only [hkept, if_true]
    rfl
  · simp [hkept]

theorem beforeEq_entry (v : Text × Text) : beforeEq (entry v) = beforeEq v.1 := by
  obtain ⟨name, value⟩ := v
  show beforeEq (name ++ '=' :: value) = beforeEq name
  induction name with
  | nil => simp [beforeEq]
  | cons c name ih =>
    by_cases hc : c = '='
    · simp [beforeEq, hc]
    · simpa [beforeEq, hc] using ih

/-- The entry of a client variable is read under the part of its name before the first `=`. -/
theorem isSome_lookup_entries (vars : List (Text × Text)) (name : Text) :
    (lookup (vars.map entry) name).isSome = true ↔ ∃ v ∈ vars, beforeEq v.1 = name := by
  have hvalue : ∀ v : Text × Text, (valueOf name (entry v)).isSome = true ↔ beforeEq v.1 = name := by
    intro v
    have hmem : '=' ∈ entry v := by simp [entry]
    simp [valueOf, hmem, beforeEq_entry]
  rw [lookup, List.getLast?_isSome, List.filterMap_map, ne_eq, List.filterMap_eq_nil_iff]
  constructor
  · intro h
    by_contra hnone
    apply h
    intro v hv
    have hne := mt (hvalue v).mp (fun hv' => hnone ⟨v, hv, hv'⟩)
    simpa using hne
  · rintro ⟨v, hv, hname⟩ hnil
    have hsome := (hvalue v).mpr hname
    rw [show valueOf name (entry v) = none from hnil v hv] at hsome
    cases hsome

/-- **The value of every variable of the program**: the server's if the server has one and
    passes it on, else the one of the last accepted client entry that is read under the name. -/
theorem lookup_getEnvironments (patterns : List Text) (vars : List (Text × Text))
    (environ : List Text) (name : Text) :
    lookup (getEnvironments patterns vars environ) name =
      (if nameKept ((accepted patterns vars).map (·.1)) name then lookup environ name else none).or
        (lookup ((accepted patterns vars).map entry) name) := by
  rw [getEnvironments, lookup_append, lookup_filter_passesOn]

/-! ## Which names are protected -/

/-- The client has an accepted variable of this name. -/
def Overridden (patterns : List Text) (vars : List (Text × Text)) (name : Text) : Prop :=
  name ∈ (accepted patterns vars).map (·.1)

/-- What the environment should guarantee: a variable that is not `TERM` and matches no pattern
    has the server's value or is unset, and every server variable that the client does not
    override keeps its value, except the background variable. -/
def Protected (patterns : List Text) (vars : List (Text × Text)) (environ : List Text) : Prop :=
  (∀ name, name ≠ "TERM".toList → acceptEnv patterns name = false →
    lookup (getEnvironments patterns vars environ) name = lookup environ name ∨
    lookup (getEnvironments patterns vars environ) name = none) ∧
  (∀ name value, lookup environ name = some value → name ≠ backgroundName →
    ¬ Overridden patterns vars name →
    lookup (getEnvironments patterns vars environ) name = some value)

/-- A name that an accepted client variable sets although no pattern matches the name: the
    variable's own name goes on after an `=`. -/
def Smuggled (patterns : List Text) (vars : List (Text × Text)) (name : Text) : Prop :=
  (∃ v ∈ accepted patterns vars, beforeEq v.1 = name) ∧
  name ≠ "TERM".toList ∧ acceptEnv patterns name = false

/-- A server variable that should reach the program. -/
def Owed (patterns : List Text) (vars : List (Text × Text)) (environ : List Text) (name : Text) :
    Prop :=
  (lookup environ name).isSome = true ∧ name ≠ backgroundName ∧ ¬ Overridden patterns vars name

/-- The server has the variable and passes it on, or the client's entry for the name happens to
    have the server's value. -/
def Settled (patterns : List Text) (vars : List (Text × Text)) (environ : List Text)
    (name : Text) : Prop :=
  ((lookup environ name).isSome = true ∧ nameKept ((accepted patterns vars).map (·.1)) name) ∨
  lookup ((accepted patterns vars).map entry) name = lookup environ name

/-- A variable has the server's value exactly if it is settled. -/
theorem lookup_eq_iff_settled (patterns : List Text) (vars : List (Text × Text))
    (environ : List Text) (name : Text) :
    lookup (getEnvironments patterns vars environ) name = lookup environ name ↔
      Settled patterns vars environ name := by
  rw [lookup_getEnvironments, Settled]
  by_cases hkept : nameKept ((accepted patterns vars).map (·.1)) name
  · simp only [hkept, if_true, and_true]
    cases hserver : lookup environ name with
    | some value => simp
    | none => simp
  · simp [hkept]

/-- A name that is neither smuggled in nor owed needs no care. -/
theorem protected_of_settled {patterns : List Text} {vars : List (Text × Text)}
    {environ : List Text} (h : ∀ name, Smuggled patterns vars name ∨
      Owed patterns vars environ name → Settled patterns vars environ name) :
    Protected patterns vars environ := by
  refine ⟨?_, ?_⟩
  · intro name hterm hpat
    by_cases hclient : ∃ v ∈ accepted patterns vars, beforeEq v.1 = name
    · left
      exact (lookup_eq_iff_settled patterns vars environ name).mpr
        (h name (.inl ⟨hclient, hterm, hpat⟩))
    · have hnone : lookup ((accepted patterns vars).map entry) name = none := by
        have hsome := mt (isSome_lookup_entries _ _).mp hclient
        simpa using hsome
      rw [lookup_getEnvironments, hnone, Option.or_none]
      split
      · exact .inl rfl
      · exact .inr rfl
  · intro name value hvalue hback hover
    have hserver : (lookup environ name).isSome = true := by rw [hvalue]; rfl
    rw [(lookup_eq_iff_settled patterns vars environ name).mpr
      (h name (.inr ⟨hserver, hback, hover⟩)), hvalue]

/-- **The environment is protected if and only if** every name that the client smuggles in or
    that the server is owed belongs to a server variable that is passed on (or has the server's
    value anyway). -/
theorem environment_protected_iff (patterns : List Text) (vars : List (Text × Text))
    (environ : List Text) :
    Protected patterns vars environ ↔
      ∀ name, Smuggled patterns vars name ∨ Owed patterns vars environ name →
        Settled patterns vars environ name := by
  refine ⟨?_, protected_of_settled⟩
  rintro ⟨hunmatched, howed⟩ name (⟨hclient, hterm, hpat⟩ | ⟨hserver, hback, hover⟩)
  · have hsome := (isSome_lookup_entries _ _).mpr hclient
    apply (lookup_eq_iff_settled patterns vars environ name).mp
    rcases hunmatched name hterm hpat with hlook | hnone
    · exact hlook
    · -- the client sets the variable, so it is not unset
      rw [lookup_getEnvironments, Option.or_eq_none_iff] at hnone
      rw [hnone.2] at hsome
      cases hsome
  · obtain ⟨value, hvalue⟩ := Option.isSome_iff_exists.mp hserver
    apply (lookup_eq_iff_settled patterns vars environ name).mp
    rw [howed name value hvalue hback hover, hvalue]

/-- With the pattern `*_OPTIONS` a client sets `LD_PRELOAD`, which the server does not have and
    no pattern matches, through a variable named `LD_PRELOAD=/tmp/x.so:_OPTIONS`. -/
theorem environment_smuggled_preload :
    let patterns := ["*_OPTIONS".toList]
    let vars := [("LD_PRELOAD=/tmp/x.so:_OPTIONS".toList, [])]
    let environ := ["PATH=/bin".toList]
    acceptEnv patterns "LD_PRELOAD".toList = false ∧
    lookup environ "LD_PRELOAD".toList = none ∧
    lookup (getEnvironments patterns vars environ) "LD_PRELOAD".toList =
      some "/tmp/x.so:_OPTIONS=".toList := by
  decide +kernel

/-- It is protected where no accepted name contains `=`, and no name of the server is empty or has
    blanks around it. -/
theorem protected_of_plain_names {patterns : List Text} {vars : List (Text × Text)}
    {environ : List Text} (hclient : ∀ v ∈ accepted patterns vars, '=' ∉ v.1)
    (hserver : ∀ name, (lookup environ name).isSome = true → name ≠ [] ∧ trimSpace name = name) :
    Protected patterns vars environ := by
  apply protected_of_settled
  rintro name (⟨⟨v, hv, rfl⟩, hterm, hpat⟩ | ⟨hsome, hback, hover⟩)
  · -- the entry is read under the variable's own name, which is accepted
    have hname : beforeEq v.1 = v.1 :=
      (beforeEq_entry v).symm.trans (beforeEq_append (hclient v hv))
    have hok := List.of_mem_filter hv
    rw [hname] at hterm hpat
    rw [hpat, Bool.or_false, decide_eq_true_eq] at hok
    exact absurd hok hterm
  · obtain ⟨hne, htrim⟩ := hserver name hsome
    exact .inl ⟨hsome, hne, by rwa [htrim], by rwa [htrim]⟩

end Sshd
