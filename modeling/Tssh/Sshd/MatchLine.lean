import Tssh.Sshd.Wildcard

/-! # Match Lines of `sshd_config`

    `evalMatchLine` (`tsshd/sshd_config.go`) decides whether a Match block applies.  It
    normalises commas, splits the line into tokens, and reads keywords and values from the
    tokens in a loop with four cases: `User=john` or `User= john`; a token `=`; `User =john`
    or `User = john`; and `User john`.  Values that are empty are dropped.
    `evalMatchConditions` then rejects every keyword it cannot evaluate.

    * **Grammar** (`MatchLine`): which criteria a line has, each with or without a value.  `All`
      takes no value.
    * **Loop** (`criteria`): what the loop takes for the criteria of the line; `matchLoop_eq`: it
      collects their values.
    * `MatchLine.criteria_eq`: the loop reads a line as if `All` were a keyword like the others,
      which takes the token behind it.
    * `unsupported_criterion_rejected_iff`: a keyword that is not followed by a value does not
      reach the check that rejects it, and neither does one that was taken for the value of `All`.
-/

namespace Sshd

/-! ## The evaluation of a line -/

/-- The characters `\s` matches in a Go regular expression. -/
def isReSpace (c : Char) : Bool := c ∈ ['\t', '\n', '\x0c', '\r', ' ']

/-- `matchCriteriaCommaRegexp.ReplaceAllString(line, ",")` for the expression `\s*,\s*`.
    `skip` holds right after a comma; `spaces` are blanks that a comma may still follow. -/
def replaceCommas : Bool → Text → Text → Text
  | _, spaces, [] => spaces
  | skip, spaces, c :: line =>
    if c = ',' then ',' :: replaceCommas true [] line
    else if isReSpace c then
      if skip then replaceCommas true [] line else replaceCommas false (spaces ++ [c]) line
    else spaces ++ c :: replaceCommas false [] line

def matchTokens (line : Text) : List Text := fields (replaceCommas false [] line)

/-- The map `conds`: every value with its key, in the order in which they were appended. -/
abbrev Conds := List (Text × Text)

def Conds.get (conds : Conds) (key : Text) : List Text :=
  (conds.filter (·.1 = key)).map (·.2)

/-- The values `addCondValue` appends. -/
def condValues (vals : Text) : List Text :=
  ((vals.splitOn ',').map trimSpace).filter (· ≠ [])

def addCondValue (conds : Conds) (key vals : Text) : Conds :=
  conds ++ (condValues vals).map fun v => (key, v)

/-- `strings.SplitN(token, "=", 2)`, its two parts. -/
def beforeEq (token : Text) : Text := token.takeWhile (· ≠ '=')

def afterEq (token : Text) : Text := (token.dropWhile (· ≠ '=')).drop 1

/-- The loop of `evalMatchLine` from the token `i` on.  Every round moves on, so as many
    rounds as tokens are enough. -/
def matchLoop (tokens : List Text) : Nat → Nat → Conds → Conds
  | 0, _, conds => conds
  | rounds + 1, i, conds =>
    match tokens[i]? with
    | none => conds
    | some token =>
      if '=' ∈ token then
        -- case 1: the token contains "="
        let key := toLower (trimSpace (beforeEq token))
        let val := trimSpace (afterEq token)
        match (if val = [] then tokens[i + 1]? else none) with
        | some next => matchLoop tokens rounds (i + 2) (addCondValue conds key next)
        | none => matchLoop tokens rounds (i + 1) (addCondValue conds key val)
      else if token = ['='] then
        -- case 2: the token is just "="; case 1 is taken before
        match (if 1 ≤ i then tokens[i - 1]? else none), tokens[i + 1]? with
        | some prev, some next =>
          matchLoop tokens rounds (i + 2) (addCondValue conds (toLower prev) next)
        | _, _ => matchLoop tokens rounds (i + 1) conds
      else
        match tokens[i + 1]? with
        | none => matchLoop tokens rounds (i + 1) conds
        | some next =>
          if next.head? = some '=' then
            -- case 3: the next token starts with "="
            let val := next.drop 1
            match (if val = [] then tokens[i + 2]? else none) with
            | some v => matchLoop tokens rounds (i + 3) (addCondValue conds (toLower token) v)
            | none => matchLoop tokens rounds (i + 2) (addCondValue conds (toLower token) val)
          else
            -- case 4: KEY VALUE
            matchLoop tokens rounds (i + 2) (addCondValue conds (toLower token) next)

/-- The loop of `matchList` and `matchGroupList`, where `hit` says whether a pattern matches.
    A negated pattern that matches decides at once. -/
def matchPatterns (hit : Text → Bool) : List Text → Bool → Bool → Bool
  | [], hasPositive, positiveMatch => if hasPositive then positiveMatch else true
  | p :: patterns, hasPositive, positiveMatch =>
    let neg := p.head? = some '!'
    if hit (if neg then trimSpace (p.drop 1) else p) then
      if neg then false else matchPatterns hit patterns true true
    else matchPatterns hit patterns (hasPositive || !neg) positiveMatch

def matchList (value : Text) (patterns : List Text) : Bool :=
  matchPatterns (wildcardMatch · value) patterns false false

def matchGroupList (groups patterns : List Text) : Bool :=
  matchPatterns (fun pat => groups.any (wildcardMatch pat)) patterns false false

/-- The keywords `evalMatchConditions` can evaluate. -/
def supported (key : Text) : Bool := key ∈ ["user".toList, "group".toList, "all".toList]

def evalMatchConditions (conds : Conds) (user : Text) (groups : List Text) : Bool :=
  if conds.any fun c => !supported c.1 then false
  else if conds.get "user".toList ≠ [] ∧ !matchList user (conds.get "user".toList) then false
  else if conds.get "group".toList ≠ [] ∧ !matchGroupList groups (conds.get "group".toList) then
    false
  else true

def evalMatchLine (line user : Text) (groups : List Text) : Bool :=
  let tokens := matchTokens line
  if tokens = [] then false
  else evalMatchConditions (matchLoop tokens tokens.length 0 []) user groups

/-! ## The criteria the loop reads -/

/-- A keyword with `=` and the text that follows the sign in the same token; if there is none,
    the value is the next token. -/
def valueAfterEq (key val : Text) (rest : List Text) : (Text × Text) × List Text :=
  match val, rest with
  | [], next :: rest => ((key, next), rest)
  | val, rest => ((key, val), rest)

/-- The criterion at the front of the tokens, its keyword in lower case and its value, empty
    if the line ends before a value; and the tokens after it. -/
def readCriterion (token : Text) (rest : List Text) : (Text × Text) × List Text :=
  if '=' ∈ token then valueAfterEq (toLower (trimSpace (beforeEq token))) (trimSpace (afterEq token)) rest
  else
    match rest with
    | [] => ((toLower token, []), [])
    | next :: rest =>
      if next.head? = some '=' then valueAfterEq (toLower token) (next.drop 1) rest
      else ((toLower token, next), rest)

def criteriaLoop : Nat → List Text → List (Text × Text)
  | 0, _ => []
  | _, [] => []
  | rounds + 1, token :: rest =>
    (readCriterion token rest).1 :: criteriaLoop rounds (readCriterion token rest).2

/-- The criteria of a line as the loop reads them, with and without a value. -/
def criteria (line : Text) : List (Text × Text) :=
  criteriaLoop (matchTokens line).length (matchTokens line)

/-- The ways to write a criterion with a value. -/
inductive Style where
  | blank
  | eq
  | eqBlank
  | blankEq
  | blankEqBlank
  deriving DecidableEq, Repr

/-- The tokens of a written criterion: the first one, and the others. -/
def written (key val : Text) : Style → Text × List Text
  | .blank => (key, [val])
  | .eq => (key ++ '=' :: val, [])
  | .eqBlank => (key ++ ['='], [val])
  | .blankEq => (key, ['=' :: val])
  | .blankEqBlank => (key, [['='], val])

theorem beforeEq_append {key val : Text} (h : '=' ∉ key) : beforeEq (key ++ '=' :: val) = key := by
  induction key with
  | nil => simp [beforeEq]
  | cons c key ih =>
    have hc : c ≠ '=' := fun hc => h (by simp [hc])
    have ih := ih (fun hmem => h (List.mem_cons_of_mem _ hmem))
    simpa [beforeEq, hc] using ih

theorem afterEq_append {key val : Text} (h : '=' ∉ key) : afterEq (key ++ '=' :: val) = val := by
  induction key with
  | nil => simp [afterEq]
  | cons c key ih =>
    have hc : c ≠ '=' := fun hc => h (by simp [hc])
    have ih := ih (fun hmem => h (List.mem_cons_of_mem _ hmem))
    simpa [afterEq, hc] using ih

/-- **Every spelling is read as the keyword and the value that were written.** -/
theorem readCriterion_written {key val : Text} (hkey : '=' ∉ key) (hkeytrim : trimSpace key = key)
    (hval : val ≠ []) (hvaltrim : trimSpace val = val) (style : Style)
    (hblank : style = .blank → val.head? ≠ some '=') (rest : List Text) :
    readCriterion (written key val style).1 ((written key val style).2 ++ rest) =
      ((toLower key, val), rest) := by
  obtain ⟨c, val, rfl⟩ := List.exists_cons_of_ne_nil hval
  cases style with
  | blank =>
    simp only [written, readCriterion, hkey, if_false, List.cons_append, hblank rfl]
    rfl
  | eq =>
    simp only [written, readCriterion, beforeEq_append hkey, afterEq_append hkey, hkeytrim, hvaltrim]
    simp [valueAfterEq]
  | eqBlank =>
    have hnil : trimSpace ([] : Text) = [] := rfl
    simp only [written, readCriterion, beforeEq_append hkey, afterEq_append hkey, hkeytrim, hnil]
    simp [valueAfterEq]
  | blankEq => simp [written, readCriterion, hkey, valueAfterEq]
  | blankEqBlank => simp [written, readCriterion, hkey, valueAfterEq]

/-- The tokens of a keyword without a value at the end of the line. -/
def unvalued (key : Text) : List (Text × List Text) :=
  [(key, []), (key ++ ['='], []), (key, [['=']])]

theorem readCriterion_unvalued {key token : Text} {rest : List Text} (hkey : '=' ∉ key)
    (hkeytrim : trimSpace key = key) (htokens : (token, rest) ∈ unvalued key) :
    readCriterion token rest = ((toLower key, []), []) := by
  have hnil : trimSpace ([] : Text) = [] := rfl
  simp only [unvalued, List.mem_cons, List.not_mem_nil, or_false, Prod.mk.injEq] at htokens
  rcases htokens with ⟨rfl, rfl⟩ | ⟨rfl, rfl⟩ | ⟨rfl, rfl⟩
  · simp [readCriterion, hkey]
  · simp only [readCriterion, beforeEq_append hkey, afterEq_append hkey, hkeytrim, hnil]
    simp [valueAfterEq]
  · simp [readCriterion, hkey, valueAfterEq]

/-! ## The grammar of a line -/

/-- **The grammar of a Match line**: the tokens of a line with the criteria `cs`, each a keyword
    in lower case with its value, empty if it has none.  The keywords of `bare` take no value but
    one that is given with `=`. -/
inductive MatchLine (bare : Text → Prop) : List Text → List (Text × Text) → Prop where
  | nil : MatchLine bare [] []
  | bare (key : Text) {rest : List Text} {cs : List (Text × Text)} : bare (toLower key) →
      '=' ∉ key → (∀ next ∈ rest.head?, next.head? ≠ some '=') → MatchLine bare rest cs →
      MatchLine bare (key :: rest) ((toLower key, []) :: cs)
  | value (key val : Text) (style : Style) {rest : List Text} {cs : List (Text × Text)} :
      '=' ∉ key → val ≠ [] →
      (style = .blank → val.head? ≠ some '=' ∧ ¬ bare (toLower key)) → MatchLine bare rest cs →
      MatchLine bare ((written key val style).1 :: ((written key val style).2 ++ rest))
        ((toLower key, val) :: cs)
  | last (key : Text) {token : Text} {rest : List Text} : '=' ∉ key →
      (token, rest) ∈ unvalued key → MatchLine bare (token :: rest) [(toLower key, [])]

theorem MatchLine.eq_nil_iff {bare : Text → Prop} {tokens : List Text} {cs : List (Text × Text)}
    (h : MatchLine bare tokens cs) : cs = [] ↔ tokens = [] := by
  cases h <;> simp

/-- The criteria of the tokens, where only `All` stands without a value. -/
abbrev Criteria : List Text → List (Text × Text) → Prop := MatchLine (· = "all".toList)

/-- The tokens read as if `All` took a value too. -/
abbrev AllTakesValue : List Text → List (Text × Text) → Prop := MatchLine fun _ => False

/-- Every line has criteria, whichever keywords take no value. -/
theorem exists_matchLine (bare : Text → Prop) (n : Nat) (tokens : List Text)
    (hlen : tokens.length ≤ n) (hne : ∀ t ∈ tokens, t ≠ []) : ∃ cs, MatchLine bare tokens cs := by
  induction n generalizing tokens with
  | zero =>
    obtain rfl := List.length_eq_zero_iff.mp (Nat.le_zero.mp hlen)
    exact ⟨[], .nil⟩
  | succ n ih =>
    -- the criterion at the front takes one to three tokens
    match tokens with
    | [] => exact ⟨[], .nil⟩
    | token :: rest =>
      simp only [List.length_cons, List.forall_mem_cons] at hlen hne
      by_cases heq : '=' ∈ token
      · obtain ⟨key, val, rfl, hkey⟩ := List.eq_append_cons_of_mem heq
        match val, rest with
        | c :: val, rest =>
          obtain ⟨cs, hcs⟩ := ih rest (by omega) hne.2
          exact ⟨_, .value key (c :: val) .eq hkey (by simp) (by simp) hcs⟩
        | [], [] => exact ⟨_, .last key hkey (by simp [unvalued])⟩
        | [], next :: rest =>
          simp only [List.length_cons, List.forall_mem_cons] at hlen hne
          obtain ⟨cs, hcs⟩ := ih rest (by omega) hne.2.2
          exact ⟨_, .value key next .eqBlank hkey hne.2.1 (by simp) hcs⟩
      · match rest with
        | [] => exact ⟨_, .last token heq (by simp [unvalued])⟩
        | next :: rest =>
          simp only [List.length_cons, List.forall_mem_cons] at hlen hne
          by_cases hnext : next.head? = some '='
          · obtain ⟨val, rfl⟩ := List.head?_eq_some_iff.mp hnext
            match val, rest with
            | c :: val, rest =>
              obtain ⟨cs, hcs⟩ := ih rest (by omega) hne.2.2
              exact ⟨_, .value token (c :: val) .blankEq heq (by simp) (by simp) hcs⟩
            | [], [] => exact ⟨_, .last token heq (by simp [unvalued])⟩
            | [], third :: rest =>
              simp only [List.length_cons, List.forall_mem_cons] at hlen hne
              obtain ⟨cs, hcs⟩ := ih rest (by omega) hne.2.2.2
              exact ⟨_, .value token third .blankEqBlank heq hne.2.2.1 (by simp) hcs⟩
          · by_cases hbare : bare (toLower token)
            · obtain ⟨cs, hcs⟩ := ih (next :: rest) (Nat.le_of_succ_le_succ hlen)
                (by simpa using hne.2)
              exact ⟨_, .bare token hbare heq (by simpa using hnext) hcs⟩
            · obtain ⟨cs, hcs⟩ := ih rest (by omega) hne.2.2
              exact ⟨_, .value token next .blank heq hne.2.1 (fun _ => ⟨hnext, hbare⟩) hcs⟩

/-- The loop reads the line as if `All` took a value. -/
theorem MatchLine.criteriaLoop_eq {tokens : List Text} {ds : List (Text × Text)}
    (h : AllTakesValue tokens ds) (hsolid : ∀ t ∈ tokens, ∀ c ∈ t, isSpace c = false)
    (rounds : Nat) (hrounds : tokens.length ≤ rounds) : criteriaLoop rounds tokens = ds := by
  induction h generalizing rounds with
  | nil => cases rounds <;> rfl
  | bare _ hbare => exact hbare.elim
  | @value key val style rest ds hkey hval hblank _ ih =>
    have hspaces : (∀ c ∈ key, isSpace c = false) ∧ (∀ c ∈ val, isSpace c = false) := by
      cases style <;> simp_all [written]
    cases rounds with
    | zero => simp at hrounds
    | succ rounds =>
      have hlen : rest.length ≤ rounds := by
        simp only [List.length_cons, List.length_append] at hrounds
        omega
      rw [criteriaLoop, readCriterion_written hkey (trimSpace_eq_self hspaces.1) hval
        (trimSpace_eq_self hspaces.2) style (fun hs => (hblank hs).1),
        ih (fun t ht => hsolid t (by simp [ht])) rounds hlen]
  | @last key token rest hkey htokens =>
    have hspaces : ∀ c ∈ key, isSpace c = false := by
      have hall := htokens
      simp only [unvalued, List.mem_cons, List.not_mem_nil, or_false, Prod.mk.injEq] at hall
      rcases hall with ⟨rfl, rfl⟩ | ⟨rfl, rfl⟩ | ⟨rfl, rfl⟩ <;> simp_all
    cases rounds with
    | zero => simp at hrounds
    | succ rounds =>
      rw [criteriaLoop, readCriterion_unvalued hkey (trimSpace_eq_self hspaces) htokens]
      cases rounds <;> rfl

theorem MatchLine.criteria_eq {line : Text} {ds : List (Text × Text)}
    (h : AllTakesValue (matchTokens line) ds) : criteria line = ds :=
  h.criteriaLoop_eq (fun _ ht => isSpace_of_mem_fields ht) _ (Nat.le_refl _)

/-- Both readings agree where `All` is the last criterion or comes with a value. -/
theorem MatchLine.all_last {tokens : List Text} {cs : List (Text × Text)} (h : Criteria tokens cs)
    (hlast : ∀ pre post, cs = pre ++ ("all".toList, []) :: post → post = []) :
    AllTakesValue tokens cs := by
  induction h with
  | nil => exact .nil
  | @bare key rest cs hkey heq hnext hrest ih =>
    obtain rfl : cs = [] := hlast [] cs (by rw [hkey]; rfl)
    cases hrest
    exact .last key heq (by simp [unvalued])
  | value key val style hkey hval hblank _ ih =>
    refine .value key val style hkey hval (fun hs => ⟨(hblank hs).1, id⟩) (ih ?_)
    intro pre post hcs
    exact hlast ((toLower key, val) :: pre) post (by rw [hcs]; rfl)
  | last key hkey htokens => exact .last key hkey htokens

/-! ## What the loop collects -/

/-- The values of a criterion, each with the keyword. -/
def condsOf (c : Text × Text) : Conds := (condValues c.2).map fun v => (c.1, v)

/-- **The loop collects the values of the criteria**, and nothing of a criterion without one. -/
theorem matchLoop_eq (tokens : List Text) (rounds i : Nat) (conds : Conds) :
    matchLoop tokens rounds i conds =
      conds ++ (criteriaLoop rounds (tokens.drop i)).flatMap condsOf := by
  induction rounds generalizing i conds with
  | zero => simp [matchLoop, criteriaLoop]
  | succ rounds ih =>
    have hget : ∀ k, tokens[i + k]? = (tokens.drop i)[k]? := fun k => List.getElem?_drop.symm
    have hdrop : ∀ k, tokens.drop (i + k) = (tokens.drop i).drop k := fun k => by
      rw [List.drop_drop]
    have hget0 := hget 0
    rw [Nat.add_zero] at hget0
    rw [matchLoop, hget0, hget 1, hget 2]
    cases htokens : tokens.drop i with
    | nil => simp [criteriaLoop]
    | cons token rest =>
      rw [htokens] at hdrop
      simp only [List.getElem?_cons_zero, List.getElem?_cons_succ, criteriaLoop, List.flatMap_cons]
      by_cases heq : '=' ∈ token
      · -- case 1
        simp only [heq, if_true, readCriterion]
        cases hval : trimSpace (afterEq token) with
        | nil =>
          cases rest with
          | nil => simp [valueAfterEq, ih, hdrop, addCondValue, condsOf]
          | cons next rest => simp [valueAfterEq, ih, hdrop, addCondValue, condsOf]
        | cons c val => simp [valueAfterEq, ih, hdrop, addCondValue, condsOf]
      · have htoken : token ≠ ['='] := fun h => heq (by simp [h])
        simp only [heq, htoken, if_false, readCriterion]
        cases rest with
        | nil => simp [ih, hdrop, condsOf, condValues, trimSpace]
        | cons next rest =>
          simp only [List.getElem?_cons_zero, List.getElem?_cons_succ]
          by_cases hnext : next.head? = some '='
          · -- case 3
            simp only [hnext, if_true]
            cases hval : next.drop 1 with
            | nil =>
              cases rest with
              | nil => simp [valueAfterEq, ih, hdrop, addCondValue, condsOf]
              | cons third rest => simp [valueAfterEq, ih, hdrop, addCondValue, condsOf]
            | cons c val => simp [valueAfterEq, ih, hdrop, addCondValue, condsOf]
          · -- case 4
            simp [hnext, ih, hdrop, addCondValue, condsOf]

/-! ## Unsupported criteria -/

/-- The patterns a line gives for a keyword. -/
def patternsOf (key : Text) (cs : List (Text × Text)) : List Text :=
  (cs.filter (·.1 = key)).flatMap fun c => condValues c.2

theorem get_condsOf (key : Text) (cs : List (Text × Text)) :
    Conds.get (cs.flatMap condsOf) key = patternsOf key cs := by
  induction cs with
  | nil => rfl
  | cons c cs ih =>
    unfold Conds.get patternsOf at ih ⊢
    rw [List.flatMap_cons, List.filter_append, List.map_append, ih]
    by_cases hkey : c.1 = key
    · have hall : ∀ d ∈ condsOf c, decide (d.1 = key) = true := by
        intro d hd
        obtain ⟨v, _, rfl⟩ := List.mem_map.mp hd
        simpa using hkey
      rw [List.filter_eq_self.mpr hall]
      simp [hkey, condsOf, Function.comp_def]
    · simp [hkey, condsOf]

/-- A keyword that cannot be evaluated is noticed through its values only. -/
theorem any_unsupported_condsOf (cs : List (Text × Text)) :
    (cs.flatMap condsOf).any (fun c => !supported c.1) = true ↔
      ∃ c ∈ cs, supported c.1 = false ∧ condValues c.2 ≠ [] := by
  constructor
  · intro h
    obtain ⟨d, hd, hsup⟩ := List.any_eq_true.mp h
    obtain ⟨c, hc, hdc⟩ := List.mem_flatMap.mp hd
    obtain ⟨v, hv, rfl⟩ := List.mem_map.mp hdc
    exact ⟨c, hc, by simpa using hsup, List.ne_nil_of_mem hv⟩
  · rintro ⟨c, hc, hsup, hne⟩
    obtain ⟨v, hv⟩ := List.exists_mem_of_ne_nil _ hne
    apply List.any_eq_true.mpr
    exact ⟨(c.1, v), List.mem_flatMap.mpr ⟨c, hc, List.mem_map.mpr ⟨v, hv, rfl⟩⟩, by simp [hsup]⟩

theorem evalMatchConditions_eq_false (conds : Conds) (user : Text) (groups : List Text) :
    evalMatchConditions conds user groups = false ↔
      conds.any (fun c => !supported c.1) = true ∨
      (conds.get "user".toList ≠ [] ∧ matchList user (conds.get "user".toList) = false) ∨
      (conds.get "group".toList ≠ [] ∧ matchGroupList groups (conds.get "group".toList) = false) := by
  unfold evalMatchConditions
  split_ifs with hany huser hgroup
  · exact ⟨fun _ => .inl hany, fun _ => rfl⟩
  · exact ⟨fun _ => .inr (.inl (by simpa using huser)), fun _ => rfl⟩
  · exact ⟨fun _ => .inr (.inr (by simpa using hgroup)), fun _ => rfl⟩
  · constructor
    · intro h
      cases h
    · rintro (h | h | h)
      · exact absurd h hany
      · exact absurd (by simpa using h) huser
      · exact absurd (by simpa using h) hgroup

/-- A line with criteria is rejected for an unsupported keyword with a value, for the user
    patterns or for the group patterns. -/
theorem evalMatchLine_eq_false {line : Text} (hline : criteria line ≠ []) (user : Text)
    (groups : List Text) :
    evalMatchLine line user groups = false ↔
      (∃ c ∈ criteria line, supported c.1 = false ∧ condValues c.2 ≠ []) ∨
      (patternsOf "user".toList (criteria line) ≠ [] ∧
        matchList user (patternsOf "user".toList (criteria line)) = false) ∨
      (patternsOf "group".toList (criteria line) ≠ [] ∧
        matchGroupList groups (patternsOf "group".toList (criteria line)) = false) := by
  have htokens : matchTokens line ≠ [] := by
    intro hnil
    exact hline (by simp [criteria, hnil, criteriaLoop])
  have hconds : matchLoop (matchTokens line) (matchTokens line).length 0 [] =
      (criteria line).flatMap condsOf := by
    rw [matchLoop_eq, List.nil_append, List.drop_zero, criteria]
  rw [evalMatchLine, if_neg htokens, hconds, evalMatchConditions_eq_false, get_condsOf, get_condsOf,
    any_unsupported_condsOf]

/-- **When a line with an unsupported criterion is rejected**: let `cs` be the criteria of the
    line and `ds` those it has if `All` takes the token behind it.  The line is rejected exactly if
    an unsupported criterion of `ds` has a value, or the user patterns of `ds` reject the user, or
    its group patterns reject the groups.  The two are the same unless a bare `All` stands in
    front of another criterion. -/
theorem unsupported_criterion_rejected_iff (line user : Text) (groups : List Text)
    {cs : List (Text × Text)} (hcs : Criteria (matchTokens line) cs)
    (hline : ∃ c ∈ cs, supported c.1 = false) :
    ∃ ds, (∀ ds', AllTakesValue (matchTokens line) ds' ↔ ds' = ds) ∧
      (evalMatchLine line user groups = false ↔
        (∃ c ∈ ds, supported c.1 = false ∧ condValues c.2 ≠ []) ∨
        (patternsOf "user".toList ds ≠ [] ∧
          matchList user (patternsOf "user".toList ds) = false) ∨
        (patternsOf "group".toList ds ≠ [] ∧
          matchGroupList groups (patternsOf "group".toList ds) = false)) ∧
      ((∀ pre post, cs = pre ++ ("all".toList, []) :: post → post = []) → ds = cs) := by
  obtain ⟨ds, hds⟩ := exists_matchLine (fun _ => False) _ (matchTokens line) (Nat.le_refl _)
    fun t ht => by simpa using List.of_mem_filter ht
  have hloop := hds.criteria_eq
  have hunique : ∀ ds', AllTakesValue (matchTokens line) ds' ↔ ds' = ds :=
    fun ds' => ⟨fun h => h.criteria_eq.symm.trans hloop, fun heq => heq ▸ hds⟩
  refine ⟨ds, hunique, ?_, fun hlast => hloop.symm.trans (hcs.all_last hlast).criteria_eq⟩
  obtain ⟨c, hc, -⟩ := hline
  have hsome : ds ≠ [] := fun hnil =>
    List.ne_nil_of_mem hc (hcs.eq_nil_iff.mpr (hds.eq_nil_iff.mp hnil))
  rw [← hloop] at hsome ⊢
  exact evalMatchLine_eq_false hsome user groups

/-- `Address 192.0.2.*` after `User john` rejects the line. -/
theorem unsupported_criterion_rejected_with_value :
    Criteria (matchTokens "User john Address 192.0.2.*".toList)
      [("user".toList, "john".toList), ("address".toList, "192.0.2.*".toList)] ∧
    evalMatchLine "User john Address 192.0.2.*".toList "john".toList ["admin".toList] = false := by
  have hcs : Criteria (matchTokens "User john Address 192.0.2.*".toList)
      [("user".toList, "john".toList), ("address".toList, "192.0.2.*".toList)] :=
    .value "User".toList "john".toList .blank (by decide) (by decide) (by decide)
      (.value "Address".toList "192.0.2.*".toList .blank (by decide) (by decide) (by decide) .nil)
  obtain ⟨ds, -, hiff, hsame⟩ := unsupported_criterion_rejected_iff _ "john".toList
    ["admin".toList] hcs (by decide)
  have hall : ("all".toList, []) ∉
      [("user".toList, "john".toList), ("address".toList, "192.0.2.*".toList)] := by decide
  obtain rfl := hsame fun pre post heq => absurd (by rw [heq]; simp) hall
  exact ⟨hcs, hiff.mpr (.inl (by decide +kernel))⟩

/-- A line that ends in `Address`, and one in which `All` is followed by it, have this
    criterion and are accepted. -/
theorem unsupported_criterion_accepted_at_end :
    (Criteria (matchTokens "User john Address".toList)
        [("user".toList, "john".toList), ("address".toList, [])] ∧
      evalMatchLine "User john Address".toList "john".toList ["admin".toList] = true) ∧
    Criteria (matchTokens "All Address 192.0.2.*".toList)
        [("all".toList, []), ("address".toList, "192.0.2.*".toList)] ∧
      evalMatchLine "All Address 192.0.2.*".toList "john".toList ["admin".toList] = true := by
  refine ⟨⟨?_, by decide +kernel⟩, ?_, by decide +kernel⟩
  · exact .value "User".toList "john".toList .blank (by decide) (by decide) (by decide)
      (.last "Address".toList (by decide) (by decide))
  · exact .bare "All".toList rfl (by decide) (by decide)
      (.value "Address".toList "192.0.2.*".toList .blank (by decide) (by decide) (by decide) .nil)

end Sshd
