import Tssh.Framework.Regex
import Tssh.Sshd.Wildcard

/-! # Wildcard Patterns as Expressions

    `wildcardMatch` in `tsshd/sshd_config.go` writes the text of a regular expression,
    compiles it and matches the value.  Here the text is written as the code writes it, character
    by character, and given to the library of Go's expressions.

    * `wildcardMatch_eq`: the text compiles, and the match is the one of `Sshd.wildcardMatch`,
      which works on the items of the pattern.
    * `wildcard_glob`: on values without newlines it is the match of a **glob** (`Glob`).  A
      special character that was not escaped, or a missing anchor, would let an access rule
      hold for more users.
-/

namespace Sshd

/-! ## The code -/

namespace Expr

/-- The special characters that the `switch` escapes. -/
def escaped : List Char :=
  ['(', ')', '[', ']', '{', '}', '.', '+', ',', '-', '^', '$', '|', '\\']

/-- The `switch` over a character of the pattern; `wildcardToRegexp` of `tssh` has the same. -/
def translate (c : Char) : Text :=
  if c = '*' then ['.', '*']
  else if c = '?' then ['.']
  else if c ∈ escaped then ['\\', c]
  else [c]

/-- `wildcardToRegexp`, with the anchors. -/
def wildcardToRegexp (pattern : Text) : Text := '^' :: pattern.flatMap translate ++ ['$']

def wildcardMatch (pattern value : Text) : Bool :=
  match Regex.compile (wildcardToRegexp pattern) with
  | none => false
  | some re => Regex.matchString re value

end Expr

/-! ## Globs -/

/-- The whole value matches the pattern: `*` is any sequence of characters, `?` one character,
    and every other character is itself. -/
def Glob : Text → Text → Prop
  | [], value => value = []
  | c :: pattern, value =>
    if c = '*' then ∃ w rest, value = w ++ rest ∧ Glob pattern rest
    else if c = '?' then ∃ d rest, value = d :: rest ∧ Glob pattern rest
    else ∃ rest, value = c :: rest ∧ Glob pattern rest

/-! ## The expression compiles -/

open Regex

/-- The node that an item is written as. -/
def Item.node : Item → Node
  | lit c => .one (.char c)
  | any => .one .any
  | anyStar => .star .any

/-- The nodes of a pattern. -/
def nodes (pattern : Text) : List Node := (wildcardToRegexp pattern).map Item.node

theorem nodes_cons (c : Char) (pattern : Text) :
    nodes (c :: pattern) =
      (if c = '*' then Item.anyStar else if c = '?' then .any else .lit c).node :: nodes pattern := by
  simp [nodes, wildcardToRegexp]

theorem isPunct_escaped {c : Char} (h : c ∈ Expr.escaped) : isPunct c = true := by
  have hall : Expr.escaped.all isPunct = true := by decide
  exact List.all_eq_true.mp hall c h

/-- A character that is not translated is no operator. -/
theorem not_operator {c : Char} (hstar : c ≠ '*') (hmark : c ≠ '?') (h : c ∉ Expr.escaped) :
    c ∉ ['*', '\\', '.', '^', '$'] ++ operators := by
  simp only [Expr.escaped, operators, List.mem_cons, List.not_mem_nil, or_false, not_or,
    List.mem_append] at *
  tauto

/-- **The expression compiles**, by induction on the pattern.  What was read before a
    character decides only which node is still to be written. -/
theorem parse_translate (pattern suffix : Text) (last : List Node) {place : Place}
    (hplace : place ≠ .escape)
    (hend : ∀ place : Place, place ≠ .escape → parse place suffix = some (place.pending ++ last)) :
    parse place (pattern.flatMap Expr.translate ++ suffix) =
      some (place.pending ++ nodes pattern ++ last) := by
  induction pattern generalizing place with
  | nil => simpa [nodes, wildcardToRegexp] using hend place hplace
  | cons c pattern ih =>
    rw [List.flatMap_cons, List.append_assoc, nodes_cons]
    by_cases hstar : c = '*'
    · subst hstar
      show parse place ('.' :: '*' :: (pattern.flatMap Expr.translate ++ suffix)) = _
      rw [parse_any_star hplace, ih (by simp)]
      simp [Place.pending, Item.node]
    by_cases hmark : c = '?'
    · subst hmark
      show parse place ('.' :: (pattern.flatMap Expr.translate ++ suffix)) = _
      rw [parse_any hplace, ih (by simp)]
      simp [Place.pending, Item.node]
    rw [if_neg hstar, if_neg hmark]
    by_cases hescaped : c ∈ Expr.escaped
    · have htranslate : Expr.translate c = ['\\', c] := by
        simp [Expr.translate, hstar, hmark, hescaped]
      rw [htranslate]
      show parse place ('\\' :: c :: (pattern.flatMap Expr.translate ++ suffix)) = _
      rw [parse_escaped hplace (isPunct_escaped hescaped), ih (by simp)]
      simp [Place.pending, Item.node]
    · have htranslate : Expr.translate c = [c] := by
        simp [Expr.translate, hstar, hmark, hescaped]
      rw [htranslate]
      show parse place (c :: (pattern.flatMap Expr.translate ++ suffix)) = _
      rw [parse_char hplace (not_operator hstar hmark hescaped), ih (by simp)]
      simp [Place.pending, Item.node]

theorem compile_wildcardToRegexp (pattern : Text) :
    compile (Expr.wildcardToRegexp pattern) =
      some (.beginText :: nodes pattern ++ [.endText]) := by
  have hbody : parse .other (pattern.flatMap Expr.translate ++ ['$']) =
      some (nodes pattern ++ [.endText]) :=
    parse_translate pattern ['$'] [.endText] (by simp) (fun _ hplace => parse_end hplace)
  show parse .other ('^' :: (pattern.flatMap Expr.translate ++ ['$'])) = _
  simp [parse, hbody, Place.pending]

/-! ## What it matches -/

theorem mem_afterStar {s rest : Text} :
    rest ∈ afterStar s ↔ ∃ w, s = w ++ rest ∧ ∀ c ∈ w, Class.any.accepts c = true := by
  induction s with
  | nil => simp [afterStar]
  | cons c s ih =>
    rw [afterStar, List.mem_cons]
    constructor
    · rintro (rfl | hlater)
      · exact ⟨[], rfl, by simp⟩
      · split at hlater
        next => cases hlater
        next hc =>
          obtain ⟨w, rfl, hw⟩ := ih.mp hlater
          exact ⟨c :: w, rfl, List.forall_mem_cons.mpr ⟨by simpa [Class.accepts] using hc, hw⟩⟩
    · rintro ⟨w, hs, hw⟩
      cases w with
      | nil => exact .inl hs.symm
      | cons d w =>
        obtain ⟨rfl, rfl⟩ := List.cons.inj hs
        have hc : c ≠ '\n' := by simpa [Class.accepts] using hw c List.mem_cons_self
        right
        rw [if_neg hc]
        exact ih.mpr ⟨w, rfl, fun c hc => hw c (List.mem_cons_of_mem _ hc)⟩

/-- Matching the nodes up to the end of the text is matching the items. -/
theorem here_nodes (items : List Item) (before s : Text) :
    Here (items.map Item.node ++ [.endText]) before s ↔ matchItems items s = true := by
  induction items generalizing before s with
  | nil => simp [Here, matchItems, List.isEmpty_iff]
  | cons item items ih =>
    cases item with
    | lit c | any =>
      cases s with
      | nil => simp [Item.node, Here, matchItems]
      | cons d s => simp [Item.node, Here, matchItems, Class.accepts, ih]
    | anyStar =>
      simp only [List.map_cons, List.cons_append, Item.node, Here, matchItems, List.any_eq_true,
        mem_afterStar, ih]
      constructor
      · rintro ⟨w, s', hs, hw, hmatch⟩
        exact ⟨s', ⟨w, hs, hw⟩, hmatch⟩
      · rintro ⟨s', ⟨w, hs, hw⟩, hmatch⟩
        exact ⟨w, s', hs, hw, hmatch⟩

/-- **Two levels.**  Compiling the text and matching is matching the items of the pattern. -/
theorem wildcardMatch_eq (pattern value : Text) :
    Expr.wildcardMatch pattern value = wildcardMatch pattern value := by
  rw [Bool.eq_iff_iff, Expr.wildcardMatch, compile_wildcardToRegexp]
  simp only [matchString_iff, List.cons_append, matches_anchored]
  exact here_nodes _ [] value

/-- On values without newlines the items match like the glob. -/
theorem matchItems_glob (pattern : Text) {value : Text} (h : '\n' ∉ value) :
    matchItems (wildcardToRegexp pattern) value = true ↔ Glob pattern value := by
  induction pattern generalizing value with
  | nil => simp [wildcardToRegexp, matchItems, Glob, List.isEmpty_iff]
  | cons c pattern ih =>
    have hitems : wildcardToRegexp (c :: pattern) =
        (if c = '*' then .anyStar else if c = '?' then .any else .lit c) ::
          wildcardToRegexp pattern := rfl
    rw [hitems, Glob]
    split
    next =>
      simp only [matchItems, List.any_eq_true, mem_afterStar]
      constructor
      · rintro ⟨rest, ⟨w, rfl, -⟩, hmatch⟩
        have hrest : '\n' ∉ rest := fun hmem => h (List.mem_append_right w hmem)
        exact ⟨w, rest, rfl, (ih hrest).mp hmatch⟩
      · rintro ⟨w, rest, rfl, hglob⟩
        have hrest : '\n' ∉ rest := fun hmem => h (List.mem_append_right w hmem)
        refine ⟨rest, ⟨w, rfl, ?_⟩, (ih hrest).mpr hglob⟩
        -- no character of the value is a newline, so `.` accepts all that `*` stands for
        intro d hd
        have hne : d ≠ '\n' := by
          rintro rfl
          exact h (List.mem_append_left rest hd)
        simpa [Class.accepts] using hne
    next =>
      split
      next =>
        cases value with
        | nil => simp [matchItems]
        | cons d rest =>
          rw [List.mem_cons, not_or] at h
          simp [matchItems, ih h.2, Ne.symm h.1]
      next =>
        cases value with
        | nil => simp [matchItems]
        | cons d rest =>
          rw [List.mem_cons, not_or] at h
          simp [matchItems, ih h.2]

/-- **Glob matching.**  The expression that is written for a pattern always compiles, and on
    values without newlines the match is the glob match of the whole value. -/
theorem wildcard_glob (pattern value : Text) (h : '\n' ∉ value) :
    (compile (Expr.wildcardToRegexp pattern)).isSome ∧
    (Expr.wildcardMatch pattern value = true ↔ Glob pattern value) := by
  constructor
  · rw [compile_wildcardToRegexp, Option.isSome_some]
  · rw [wildcardMatch_eq]
    exact matchItems_glob pattern h

theorem wildcard_glob_host : '\n' ∉ "db1.example".toList ∧
    (Expr.wildcardMatch "db?.*".toList "db1.example".toList = true ↔
      Glob "db?.*".toList "db1.example".toList) :=
  ⟨by decide, (wildcard_glob _ _ (by decide)).2⟩

end Sshd
