import Tssh.Sshd.MatchLine

/-! # A Match Line as a Conjunction

    A Match block applies when every criterion of its line is satisfied.  `evalMatchLine`
    collects the patterns of all criteria of a keyword in one list before it evaluates them.
    Here is what a criterion says on its own (`Satisfied`), and for which lines of user and
    group criteria the evaluation agrees with it.

    * `matchPatterns_eq_true`: the loop of `matchList` and `matchGroupList` decides
      `ListSatisfied`.
    * `evalMatchLine_eq_true`: the line is evaluated as two lists, one for each keyword.
    * `line_is_conjunction_iff`: this is the conjunction of the criteria except where a
      criterion misses and another one of the same keyword makes up for it.
-/

namespace Sshd

/-! ## Pattern lists -/

/-- The pattern is written with `!`. -/
def negated (p : Text) : Bool := p.head? = some '!'

/-- The pattern without the sign. -/
def body (p : Text) : Text := if negated p then trimSpace (p.drop 1) else p

section PatternList

variable (hit : Text → Bool)

/-- No negated pattern of the list matches. -/
def NoneNegated (patterns : List Text) : Prop :=
  ∀ p ∈ patterns, negated p = true → hit (body p) = false

/-- Some positive pattern of the list matches. -/
def SomePositive (patterns : List Text) : Prop :=
  ∃ p ∈ patterns, negated p = false ∧ hit (body p) = true

/-- **A pattern list is satisfied** when none of its negated patterns matches and, if it has
    a positive pattern, some positive pattern matches. -/
def ListSatisfied (patterns : List Text) : Prop :=
  NoneNegated hit patterns ∧
    ((∃ p ∈ patterns, negated p = false) → SomePositive hit patterns)

instance (patterns : List Text) : Decidable (NoneNegated hit patterns) := by
  unfold NoneNegated
  infer_instance

instance (patterns : List Text) : Decidable (SomePositive hit patterns) := by
  unfold SomePositive
  infer_instance

instance (patterns : List Text) : Decidable (ListSatisfied hit patterns) := by
  unfold ListSatisfied
  infer_instance

variable {hit}

/-- The loop, with what it has seen so far: `hasPositive` a positive pattern, `positiveMatch`
    one that matches. -/
theorem matchPatterns_iff (patterns : List Text) (hasPositive positiveMatch : Bool) :
    matchPatterns hit patterns hasPositive positiveMatch = true ↔
      NoneNegated hit patterns ∧
      ((hasPositive = true ∨ ∃ p ∈ patterns, negated p = false) →
        positiveMatch = true ∨ SomePositive hit patterns) := by
  induction patterns generalizing hasPositive positiveMatch with
  | nil => cases hasPositive <;> simp [matchPatterns, NoneNegated, SomePositive]
  | cons p patterns ih =>
    unfold NoneNegated SomePositive at ih ⊢
    have hbody : (if p.head? = some '!' then trimSpace (p.drop 1) else p) = body p := by
      simp [body, negated]
    simp only [matchPatterns, hbody]
    cases hneg : negated p with
    | true =>
      have hhead : p.head? = some '!' := by simpa [negated] using hneg
      cases hhit : hit (body p) with
      | true => simp [hhead, hneg, hhit]
      | false => simp [hhead, hneg, hhit, ih]
    | false =>
      have hhead : ¬ p.head? = some '!' := by simpa [negated] using hneg
      cases hhit : hit (body p) with
      | true => simp [hhead, hneg, hhit, ih]
      | false => simp [hhead, hneg, hhit, ih]

theorem matchPatterns_eq_true (patterns : List Text) :
    matchPatterns hit patterns false false = true ↔ ListSatisfied hit patterns := by
  rw [matchPatterns_iff]
  simp [ListSatisfied]

end PatternList

/-! ## Criteria -/

section Line

variable (user : Text) (groups : List Text)

/-- The pattern matches the user name, or some group of the user. -/
def hits (key pat : Text) : Bool :=
  if key = "user".toList then wildcardMatch pat user else groups.any (wildcardMatch pat)

/-- **A criterion is satisfied on its own.** -/
def Satisfied (c : Text × Text) : Prop := ListSatisfied (hits user groups c.1) (condValues c.2)

/-- The criterion has positive patterns and none of them matches. -/
def Misses (c : Text × Text) : Prop :=
  (∃ p ∈ condValues c.2, negated p = false) ∧ ¬ SomePositive (hits user groups c.1) (condValues c.2)

/-- Some criterion misses, but nothing else on the line speaks against it: no negated pattern
    matches, and wherever a criterion misses there is one with the same keyword that has a
    matching positive pattern. -/
def Masked (cs : List (Text × Text)) : Prop :=
  (∃ c ∈ cs, Misses user groups c) ∧
  (∀ c ∈ cs, NoneNegated (hits user groups c.1) (condValues c.2)) ∧
  ∀ c ∈ cs, Misses user groups c →
    ∃ d ∈ cs, d.1 = c.1 ∧ SomePositive (hits user groups d.1) (condValues d.2)

instance (c : Text × Text) : Decidable (Satisfied user groups c) := by
  unfold Satisfied
  infer_instance

instance (c : Text × Text) : Decidable (Misses user groups c) := by
  unfold Misses
  infer_instance

instance (cs : List (Text × Text)) : Decidable (Masked user groups cs) := by
  unfold Masked
  infer_instance

end Line

/-- A line of user and group criteria, each with patterns. -/
def UserGroupLine (line : Text) : Prop :=
  criteria line ≠ [] ∧
  ∀ c ∈ criteria line, (c.1 = "user".toList ∨ c.1 = "group".toList) ∧ condValues c.2 ≠ []

instance (line : Text) : Decidable (UserGroupLine line) := by
  unfold UserGroupLine
  infer_instance

variable {user : Text} {groups : List Text}

theorem mem_patternsOf {key p : Text} {cs : List (Text × Text)} :
    p ∈ patternsOf key cs ↔ ∃ c ∈ cs, c.1 = key ∧ p ∈ condValues c.2 := by
  simp [patternsOf, and_assoc]

theorem matchList_eq_true (user : Text) (groups patterns : List Text) :
    matchList user patterns = true ↔ ListSatisfied (hits user groups "user".toList) patterns := by
  rw [matchList, matchPatterns_eq_true]
  rfl

theorem matchGroupList_eq_true (user : Text) (groups patterns : List Text) :
    matchGroupList groups patterns = true ↔
      ListSatisfied (hits user groups "group".toList) patterns := by
  rw [matchGroupList, matchPatterns_eq_true]
  rfl

/-- **The evaluation of a line**: the patterns of each keyword as one list. -/
theorem evalMatchLine_eq_true {line : Text} (hline : UserGroupLine line) :
    evalMatchLine line user groups = true ↔
      ListSatisfied (hits user groups "user".toList) (patternsOf "user".toList (criteria line)) ∧
      ListSatisfied (hits user groups "group".toList)
        (patternsOf "group".toList (criteria line)) := by
  obtain ⟨hne, hkeys⟩ := hline
  have hsupported : ¬ ∃ c ∈ criteria line, supported c.1 = false ∧ condValues c.2 ≠ [] := by
    rintro ⟨c, hc, hsup, _⟩
    rcases (hkeys c hc).1 with h | h
    · rw [h] at hsup
      exact absurd hsup (by decide)
    · rw [h] at hsup
      exact absurd hsup (by decide)
  rw [← not_iff_not, Bool.not_eq_true, evalMatchLine_eq_false hne, not_and_or,
    ← matchList_eq_true user groups, ← matchGroupList_eq_true user groups,
    Bool.not_eq_true, Bool.not_eq_true]
  constructor
  · rintro (h | h | h)
    · exact absurd h hsupported
    · exact .inl h.2
    · exact .inr h.2
  · -- an empty list rejects nobody
    rintro (h | h)
    · refine .inr (.inl ⟨?_, h⟩)
      intro hnil
      rw [hnil] at h
      exact absurd h (by simp [matchList, matchPatterns])
    · refine .inr (.inr ⟨?_, h⟩)
      intro hnil
      rw [hnil] at h
      exact absurd h (by simp [matchGroupList, matchPatterns])

/-- The same, criterion by criterion: no negated pattern of the line matches, and each keyword
    with a positive pattern has one that matches. -/
theorem evalMatchLine_eq_true_iff {line : Text} (hline : UserGroupLine line) :
    evalMatchLine line user groups = true ↔
      (∀ c ∈ criteria line, NoneNegated (hits user groups c.1) (condValues c.2)) ∧
      ∀ c ∈ criteria line, (∃ p ∈ condValues c.2, negated p = false) →
        ∃ d ∈ criteria line, d.1 = c.1 ∧ SomePositive (hits user groups d.1) (condValues d.2) := by
  rw [evalMatchLine_eq_true hline]
  have hlist : ∀ key, ListSatisfied (hits user groups key) (patternsOf key (criteria line)) ↔
      (∀ c ∈ criteria line, c.1 = key → NoneNegated (hits user groups c.1) (condValues c.2)) ∧
      ∀ c ∈ criteria line, c.1 = key → (∃ p ∈ condValues c.2, negated p = false) →
        ∃ d ∈ criteria line, d.1 = c.1 ∧
          SomePositive (hits user groups d.1) (condValues d.2) := by
    intro key
    constructor
    · rintro ⟨hneg, hpos⟩
      refine ⟨?_, ?_⟩
      · rintro c hc rfl p hp
        exact hneg p (mem_patternsOf.mpr ⟨c, hc, rfl, hp⟩)
      · rintro c hc rfl ⟨p, hp, hpositive⟩
        obtain ⟨q, hq, hqpos, hqhit⟩ := hpos ⟨p, mem_patternsOf.mpr ⟨c, hc, rfl, hp⟩, hpositive⟩
        obtain ⟨d, hd, hkey, hqd⟩ := mem_patternsOf.mp hq
        exact ⟨d, hd, hkey, q, hqd, hqpos, by rw [hkey]; exact hqhit⟩
    · rintro ⟨hneg, hpos⟩
      refine ⟨?_, ?_⟩
      · intro p hp
        obtain ⟨c, hc, rfl, hpc⟩ := mem_patternsOf.mp hp
        exact hneg c hc rfl p hpc
      · rintro ⟨p, hp, hpositive⟩
        obtain ⟨c, hc, rfl, hpc⟩ := mem_patternsOf.mp hp
        obtain ⟨d, hd, hkey, q, hq, hqpos, hqhit⟩ := hpos c hc rfl ⟨p, hpc, hpositive⟩
        exact ⟨q, mem_patternsOf.mpr ⟨d, hd, hkey, hq⟩, hqpos, hkey ▸ hqhit⟩
  rw [hlist, hlist]
  constructor
  · rintro ⟨⟨hnegu, hposu⟩, hnegg, hposg⟩
    refine ⟨fun c hc => ?_, fun c hc => ?_⟩
    · rcases (hline.2 c hc).1 with h | h
      · exact hnegu c hc h
      · exact hnegg c hc h
    · rcases (hline.2 c hc).1 with h | h
      · exact hposu c hc h
      · exact hposg c hc h
  · rintro ⟨hneg, hpos⟩
    exact ⟨⟨fun c hc _ => hneg c hc, fun c hc _ => hpos c hc⟩,
      fun c hc _ => hneg c hc, fun c hc _ => hpos c hc⟩

/-- **When a line is the conjunction of its criteria**: always, but where a criterion's positive
    patterns all miss, another criterion of the same keyword has a positive pattern that
    matches, and nothing else rejects the line. -/
theorem line_is_conjunction_iff (line user : Text) (groups : List Text)
    (hline : UserGroupLine line) :
    (evalMatchLine line user groups = true ↔ ∀ c ∈ criteria line, Satisfied user groups c) ↔
      ¬ Masked user groups (criteria line) := by
  rw [evalMatchLine_eq_true_iff hline]
  constructor
  · rintro hiff ⟨⟨c, hc, hpos, hmiss⟩, hneg, hmade⟩
    have heval := hiff.mp ⟨hneg, fun d hd hdpos => by
      by_cases hsome : SomePositive (hits user groups d.1) (condValues d.2)
      · exact ⟨d, hd, rfl, hsome⟩
      · exact hmade d hd ⟨hdpos, hsome⟩⟩
    exact hmiss ((heval c hc).2 hpos)
  · intro hmasked
    constructor
    · rintro ⟨hneg, hmade⟩ c hc
      refine ⟨hneg c hc, fun hpos => ?_⟩
      by_contra hmiss
      exact hmasked ⟨⟨c, hc, hpos, hmiss⟩, hneg, fun d hd hd' => hmade d hd hd'.1⟩
    · intro hall
      exact ⟨fun c hc => (hall c hc).1, fun c hc hpos => ⟨c, hc, rfl, (hall c hc).2 hpos⟩⟩

/-- `User j*,!jim Group admin User *n`, for `john`. -/
theorem line_is_conjunction_for_john :
    UserGroupLine "User j*,!jim Group admin User *n".toList ∧
    (evalMatchLine "User j*,!jim Group admin User *n".toList "john".toList ["admin".toList] = true ↔
      ∀ c ∈ criteria "User j*,!jim Group admin User *n".toList,
        Satisfied "john".toList ["admin".toList] c) :=
  ⟨by decide +kernel, (line_is_conjunction_iff _ _ _ (by decide +kernel)).mpr (by decide +kernel)⟩

/-- `User alice User bob` applies to `bob`, who does not satisfy `User alice`. -/
theorem line_accepts_missed_criterion :
    criteria "User alice User bob".toList =
      [("user".toList, "alice".toList), ("user".toList, "bob".toList)] ∧
    evalMatchLine "User alice User bob".toList "bob".toList [] = true ∧
    ¬ Satisfied "bob".toList [] ("user".toList, "alice".toList) := by
  decide +kernel

end Sshd
