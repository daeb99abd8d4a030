import Mathlib.Data.List.Basic
import Mathlib.Tactic.Common

/-! # Regular Expressions of Go

    The part of Go's regular expressions that is concatenation: characters, escaped
    punctuation, `.`, the postfix `*` and the anchors `^` and `$`.  `compile` reads the text of
    an expression; it gives `none` for a text with an error and for operators that are not in
    this part, so that an expression that compiles here also compiles in Go.

    `Here` is the documented meaning: `.` is every character except newline, `^` is the
    beginning of the text and `$` its end, and a text matches when the expression matches **some**
    part of it.  `matchString` computes it (`matchString_iff`).
-/

namespace Regex

/-- What one character of a text can be matched with. -/
inductive Class where
  | char (c : Char)
  | any
  deriving DecidableEq, Repr

def Class.accepts : Class → Char → Bool
  | char c, d => d = c
  | any, d => d ≠ '\n'

inductive Node where
  | one (k : Class)
  | star (k : Class)
  | beginText
  | endText
  deriving DecidableEq, Repr

/-! ## Reading an expression -/

/-- Characters that are operators outside this part of the language, or errors. -/
def operators : List Char := ['+', '?', '(', ')', '[', '{', '|']

/-- Punctuation: after a backslash it stands for itself. -/
def isPunct (c : Char) : Bool := c.toNat < 128 && !c.isAlphanum

/-- Where the reader is: after a backslash, or after a class, to which a `*` may still be
    added, or after anything else. -/
inductive Place where
  | escape
  | after (k : Class)
  | other
  deriving DecidableEq, Repr

/-- The node that is still to be written. -/
def Place.pending : Place → List Node
  | after k => [.one k]
  | _ => []

/-- Reads an expression from left to right. -/
def parse : Place → List Char → Option (List Node)
  | .escape, [] => none
  | .escape, c :: rest => if isPunct c then parse (.after (.char c)) rest else none
  | place, [] => some place.pending
  | .after k, '*' :: rest => (parse .other rest).map (.star k :: ·)
  | .other, '*' :: _ => none
  | place, c :: rest =>
    if c = '\\' then (parse .escape rest).map (place.pending ++ ·)
    else if c = '.' then (parse (.after .any) rest).map (place.pending ++ ·)
    else if c = '^' then (parse .other rest).map (place.pending ++ .beginText :: ·)
    else if c = '$' then (parse .other rest).map (place.pending ++ .endText :: ·)
    else if c ∈ operators then none
    else (parse (.after (.char c)) rest).map (place.pending ++ ·)

/-- `regexp.Compile`. -/
def compile (expr : List Char) : Option (List Node) := parse .other expr

example : compile "^a.*\\.$".toList =
    some [.beginText, .one (.char 'a'), .star .any, .one (.char '.'), .endText] := by decide

example : compile "a**".toList = none ∧ compile "*".toList = none := by decide

/-! ### How the reader goes on -/

section Reader

variable {place : Place} (hplace : place ≠ .escape)

include hplace

theorem parse_nil : parse place [] = some place.pending := by
  cases place with
  | escape => exact absurd rfl hplace
  | after k => rfl
  | other => rfl

theorem parse_end : parse place ['$'] = some (place.pending ++ [.endText]) := by
  cases place with
  | escape => exact absurd rfl hplace
  | after k => rfl
  | other => rfl

theorem parse_any (rest : List Char) :
    parse place ('.' :: rest) = (parse (.after .any) rest).map (place.pending ++ ·) := by
  cases place with
  | escape => exact absurd rfl hplace
  | after k => rfl
  | other => rfl

theorem parse_any_star (rest : List Char) :
    parse place ('.' :: '*' :: rest) =
      (parse .other rest).map (place.pending ++ .star .any :: ·) := by
  rw [parse_any hplace, parse, Option.map_map]
  rfl

theorem parse_escaped {c : Char} (h : isPunct c = true) (rest : List Char) :
    parse place ('\\' :: c :: rest) =
      (parse (.after (.char c)) rest).map (place.pending ++ ·) := by
  cases place with
  | escape => exact absurd rfl hplace
  | after k => simp [parse, h]
  | other => simp [parse, h]

theorem parse_char {c : Char} (h : c ∉ ['*', '\\', '.', '^', '$'] ++ operators)
    (rest : List Char) :
    parse place (c :: rest) = (parse (.after (.char c)) rest).map (place.pending ++ ·) := by
  simp only [List.mem_append, List.mem_cons, List.not_mem_nil, or_false, not_or] at h
  obtain ⟨⟨h1, h2, h3, h4, h5⟩, h6⟩ := h
  cases place with
  | escape => exact absurd rfl hplace
  | after k | other =>
    rw [parse]
    · simp [h2, h3, h4, h5, h6]
    all_goals simp [h1]

end Reader

/-! ## Meaning -/

/-- The nodes match, one after the other, at a place with `before` in front of it and `s`
    after it. -/
def Here : List Node → List Char → List Char → Prop
  | [], _, _ => True
  | .one k :: re, before, s => ∃ c s', s = c :: s' ∧ k.accepts c = true ∧ Here re (before ++ [c]) s'
  | .star k :: re, before, s =>
    ∃ w s', s = w ++ s' ∧ (∀ c ∈ w, k.accepts c = true) ∧ Here re (before ++ w) s'
  | .beginText :: re, before, s => before = [] ∧ Here re before s
  | .endText :: re, before, s => s = [] ∧ Here re before s

/-- The expression matches a part of the text. -/
def Matches (re : List Node) (text : List Char) : Prop :=
  ∃ before s, text = before ++ s ∧ Here re before s

/-! ## A matcher -/

/-- Whether the nodes match in front of `s`, at the beginning of the text or not. -/
def matchHere : List Node → Bool → List Char → Bool
  | [], _, _ => true
  | .one k :: re, _, s =>
    match s with
    | [] => false
    | c :: s => k.accepts c && matchHere re false s
  | .star k :: re, atBegin, s => matchHere re atBegin s || starLoop k (matchHere re false) s
  | .beginText :: re, atBegin, s => atBegin && matchHere re atBegin s
  | .endText :: re, atBegin, s => s.isEmpty && matchHere re atBegin s
where
  /-- Whether `next` matches after one character of the class, or more. -/
  starLoop (k : Class) (next : List Char → Bool) : List Char → Bool
    | [] => false
    | c :: s => k.accepts c && (next s || starLoop k next s)

/-- Whether the nodes match somewhere after the beginning. -/
def matchLater (re : List Node) : List Char → Bool
  | [] => false
  | _ :: s => matchHere re false s || matchLater re s

/-- `Regexp.MatchString`. -/
def matchString (re : List Node) (text : List Char) : Bool :=
  matchHere re true text || matchLater re text

variable {s text : List Char} {re : List Node}

theorem starLoop_iff {k : Class} {next : List Char → Bool} :
    matchHere.starLoop k next s = true ↔
      ∃ w s', s = w ++ s' ∧ w ≠ [] ∧ (∀ c ∈ w, k.accepts c = true) ∧ next s' = true := by
  induction s with
  | nil =>
    constructor
    · intro h
      cases h
    · rintro ⟨w, s', hs, hne, -, -⟩
      exact absurd (List.append_eq_nil_iff.mp hs.symm).1 hne
  | cons c s ih =>
    simp only [matchHere.starLoop, Bool.and_eq_true, Bool.or_eq_true, ih]
    constructor
    · rintro ⟨hc, hnext | ⟨w, s', rfl, -, hw, hnext⟩⟩
      · exact ⟨[c], s, rfl, by simp, by simpa using hc, hnext⟩
      · exact ⟨c :: w, s', rfl, by simp, List.forall_mem_cons.mpr ⟨hc, hw⟩, hnext⟩
    · rintro ⟨w, s', hs, hne, hw, hnext⟩
      obtain ⟨d, w, rfl⟩ := List.exists_cons_of_ne_nil hne
      obtain ⟨rfl, rfl⟩ := List.cons.inj hs
      refine ⟨hw c List.mem_cons_self, ?_⟩
      -- either that character is all, or more of them follow
      by_cases hnil : w = []
      · left
        simpa [hnil] using hnext
      · right
        exact ⟨w, s', rfl, hnil, fun c hc => hw c (List.mem_cons_of_mem _ hc), hnext⟩

theorem matchHere_iff (re : List Node) (before s : List Char) :
    matchHere re before.isEmpty s = true ↔ Here re before s := by
  induction re generalizing before s with
  | nil => simp [matchHere, Here]
  | cons node re ih =>
    -- after a character the place is not the beginning any more
    have hlater : ∀ w s, w ≠ [] → (matchHere re false s = true ↔ Here re (before ++ w) s) := by
      intro w s hw
      rw [← ih, List.isEmpty_eq_false_iff.mpr (by simp [hw])]
    cases node with
    | one k =>
      cases s with
      | nil => simp [matchHere, Here]
      | cons c s => simp [matchHere, Here, hlater [c] s (by simp)]
    | star k =>
      simp only [matchHere, Here, Bool.or_eq_true, starLoop_iff, ih]
      constructor
      · rintro (hhere | ⟨w, s', rfl, hne, hw, hnext⟩)
        · exact ⟨[], s, rfl, by simp, by simpa using hhere⟩
        · exact ⟨w, s', rfl, hw, (hlater w s' hne).mp hnext⟩
      · rintro ⟨w, s', rfl, hw, hnext⟩
        by_cases hne : w = []
        · left
          simpa [hne] using hnext
        · right
          exact ⟨w, s', rfl, hne, hw, (hlater w s' hne).mpr hnext⟩
    | beginText => simp [matchHere, Here, ih, List.isEmpty_iff]
    | endText => simp [matchHere, Here, ih, List.isEmpty_iff]

theorem matchLater_iff :
    matchLater re s = true ↔
      ∃ before s', s = before ++ s' ∧ before ≠ [] ∧ matchHere re false s' = true := by
  induction s with
  | nil =>
    constructor
    · intro h
      cases h
    · rintro ⟨before, s', hs, hne, -⟩
      exact absurd (List.append_eq_nil_iff.mp hs.symm).1 hne
  | cons c s ih =>
    simp only [matchLater, Bool.or_eq_true, ih]
    constructor
    · rintro (h | ⟨before, s', rfl, -, h⟩)
      · exact ⟨[c], s, rfl, by simp, h⟩
      · exact ⟨c :: before, s', rfl, by simp, h⟩
    · rintro ⟨before, s', hs, hne, h⟩
      obtain ⟨d, before, rfl⟩ := List.exists_cons_of_ne_nil hne
      obtain ⟨rfl, rfl⟩ := List.cons.inj hs
      by_cases hnil : before = []
      · left
        simpa [hnil] using h
      · right
        exact ⟨before, s', rfl, hnil, h⟩

theorem matchString_iff (re : List Node) (text : List Char) :
    matchString re text = true ↔ Matches re text := by
  have hfirst := matchHere_iff re [] text
  simp only [matchString, Bool.or_eq_true, matchLater_iff]
  constructor
  · rintro (h | ⟨before, s, rfl, hne, h⟩)
    · exact ⟨[], text, rfl, hfirst.mp h⟩
    · refine ⟨before, s, rfl, (matchHere_iff re before s).mp ?_⟩
      rwa [List.isEmpty_eq_false_iff.mpr hne]
  · rintro ⟨before, s, rfl, h⟩
    by_cases hne : before = []
    · subst hne
      exact .inl (hfirst.mpr h)
    · refine .inr ⟨before, s, rfl, hne, ?_⟩
      have := (matchHere_iff re before s).mpr h
      rwa [List.isEmpty_eq_false_iff.mpr hne] at this

/-- Without `$` a match stays one when more text follows. -/
theorem Here.append (hre : .endText ∉ re) {before s : List Char} (h : Here re before s)
    (t : List Char) : Here re before (s ++ t) := by
  induction re generalizing before s with
  | nil => trivial
  | cons node re ih =>
    rw [List.mem_cons, not_or] at hre
    cases node with
    | one k =>
      obtain ⟨c, s', rfl, hc, hnext⟩ := h
      exact ⟨c, s' ++ t, rfl, hc, ih hre.2 hnext⟩
    | star k =>
      obtain ⟨w, s', rfl, hw, hnext⟩ := h
      exact ⟨w, s' ++ t, List.append_assoc w s' t, hw, ih hre.2 hnext⟩
    | beginText => exact ⟨h.1, ih hre.2 h.2⟩
    | endText => exact absurd rfl hre.1

theorem Matches.append (hre : .endText ∉ re) (h : Matches re text) (t : List Char) :
    Matches re (text ++ t) := by
  obtain ⟨before, s, rfl, hhere⟩ := h
  exact ⟨before, s ++ t, List.append_assoc before s t, hhere.append hre t⟩

/-- `n` dots match a text without newlines exactly if it has `n` characters. -/
theorem matches_dots {n : Nat} (h : '\n' ∉ text) :
    Matches (List.replicate n (.one .any)) text ↔ n ≤ text.length := by
  have hhere : ∀ before s : List Char, '\n' ∉ s →
      (Here (List.replicate n (.one .any)) before s ↔ n ≤ s.length) := by
    induction n with
    | zero => simp [Here]
    | succ n ih =>
      intro before s hs
      cases s with
      | nil => simp [List.replicate_succ, Here]
      | cons c s =>
        rw [List.mem_cons, not_or] at hs
        simp [List.replicate_succ, Here, Class.accepts, ih _ s hs.2, Ne.symm hs.1]
  constructor
  · rintro ⟨before, s, rfl, hmatch⟩
    have hs : '\n' ∉ s := fun hmem => h (List.mem_append_right before hmem)
    have hle := (hhere before s hs).mp hmatch
    rw [List.length_append]
    omega
  · intro hle
    exact ⟨[], text, rfl, (hhere [] text h).mpr hle⟩

/-- An expression between both anchors matches the whole text. -/
theorem matches_anchored : Matches (.beginText :: re) text ↔ Here re [] text := by
  constructor
  · rintro ⟨before, s, rfl, rfl, h⟩
    exact h
  · intro h
    exact ⟨[], text, rfl, rfl, h⟩

end Regex
