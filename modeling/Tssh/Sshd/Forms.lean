import Tssh.Sshd.MatchLine

/-! # Ways to Write a Match Line

    A criterion can be written as `user a,b`, `user=a,b`, `user =a,b`, `user= a,b` and
    `user = a,b`, with blanks between the tokens and around the commas, and with the keyword in any
    letter case.  The token loop of `evalMatchLine` looks one and two tokens ahead to tell these
    forms apart.

    * **Written lines**: `LineText cs line` says that `line` is one of the ways to write the
      criteria `cs`.
    * `criteria_written`: the loop reads exactly these criteria, with the values it would
      read from `user=a,b`.
    * `forms_equivalent`: the evaluation of the line is that of the plain form.
-/

namespace Sshd

/-! ## Written lines -/

/-- Blanks between tokens. -/
def Blanks (b : Text) : Prop := ∀ c ∈ b, c = ' ' ∨ c = '\t'

/-- A character of a pattern. -/
def isWordChar (c : Char) : Bool := !isSpace c && c ≠ ',' && c ≠ '='

inductive Keyword where
  | user
  | group
  deriving DecidableEq, Repr

def Keyword.name : Keyword → Text
  | user => "user".toList
  | group => "group".toList

/-- A criterion: a keyword, and patterns without blanks, commas and `=`. -/
structure Criterion where
  keyword : Keyword
  patterns : List Text
  some_pattern : patterns ≠ []
  words : ∀ p ∈ patterns, p ≠ [] ∧ p.all isWordChar = true

/-- The value without blanks. -/
def join : List Text → Text
  | [] => []
  | [p] => p
  | p :: ps => p ++ ',' :: join ps

/-- A value with blanks around its commas. -/
inductive ValueText : List Text → Text → Prop where
  | one (p : Text) : ValueText [p] p
  | cons (p : Text) {ps : List Text} {b b' t : Text} : Blanks b → Blanks b' → ValueText ps t →
      ValueText (p :: ps) (p ++ b ++ ',' :: b' ++ t)

/-- The five forms.  `key` is the keyword in any letter case, `v` the value and `b`, `b'` are
    blanks between two tokens. -/
inductive CriterionText (c : Criterion) : Text → Prop where
  | blank {key b v : Text} : toLower key = c.keyword.name → Blanks b → b ≠ [] →
      ValueText c.patterns v → CriterionText c (key ++ b ++ v)
  | eq {key v : Text} : toLower key = c.keyword.name → ValueText c.patterns v →
      CriterionText c (key ++ '=' :: v)
  | blankEq {key b v : Text} : toLower key = c.keyword.name → Blanks b → b ≠ [] →
      ValueText c.patterns v → CriterionText c (key ++ b ++ '=' :: v)
  | eqBlank {key b v : Text} : toLower key = c.keyword.name → Blanks b → b ≠ [] →
      ValueText c.patterns v → CriterionText c (key ++ ['='] ++ b ++ v)
  | blankEqBlank {key b b' v : Text} : toLower key = c.keyword.name → Blanks b → b ≠ [] →
      Blanks b' → b' ≠ [] → ValueText c.patterns v →
      CriterionText c (key ++ b ++ (['='] ++ b' ++ v))

/-- Criteria one after the other, with blanks between them. -/
inductive CriteriaText : List Criterion → Text → Prop where
  | one {c : Criterion} {t : Text} : CriterionText c t → CriteriaText [c] t
  | cons {c : Criterion} {t b s : Text} {cs : List Criterion} : CriterionText c t → Blanks b →
      b ≠ [] → CriteriaText cs s → CriteriaText (c :: cs) (t ++ b ++ s)

/-- A line, with blanks at both ends. -/
inductive LineText : List Criterion → Text → Prop where
  | empty {b : Text} : Blanks b → LineText [] b
  | criteria {cs : List Criterion} {b s b' : Text} : Blanks b → CriteriaText cs s → Blanks b' →
      LineText cs (b ++ s ++ b')

/-- The form `key=value` without extra blanks. -/
def plainCriterion (c : Criterion) : Text := c.keyword.name ++ '=' :: join c.patterns

/-- The plain form of a line, with one blank between two criteria. -/
def plainLine : List Criterion → Text
  | [] => []
  | [c] => plainCriterion c
  | c :: cs => plainCriterion c ++ ' ' :: plainLine cs

/-! ## Characters -/

theorem isSpace_of_isReSpace {c : Char} (h : isSpace c = false) : isReSpace c = false := by
  by_contra hre
  simp only [isReSpace, decide_eq_true_eq, Bool.not_eq_false, List.mem_cons, List.not_mem_nil,
    or_false] at hre
  rcases hre with rfl | rfl | rfl | rfl | rfl <;> exact absurd h (by decide)

variable {b s t w : Text} {ps : List Text}

theorem Blanks.isReSpace (hb : Blanks b) : ∀ c ∈ b, isReSpace c = true ∧ c ≠ ',' := by
  intro c hc
  rcases hb c hc with rfl | rfl <;> decide

theorem Blanks.isSpace (hb : Blanks b) : ∀ c ∈ b, isSpace c = true := by
  intro c hc
  rcases hb c hc with rfl | rfl <;> decide

/-- A letter is no blank, no comma and no `=` in any letter case. -/
theorem isWordChar_of_toLower {c : Char} (h : isWordChar c.toLower = true) :
    isWordChar c = true := by
  by_cases hupper : 65 ≤ c.toNat ∧ c.toNat ≤ 90
  · have hall : ∀ n < 91, 65 ≤ n → isWordChar (Char.ofNat n) = true := by decide +kernel
    have hc := hall c.toNat (by omega) hupper.1
    rwa [Char.ofNat_toNat] at hc
  · have hsame : c.toLower = c := by
      unfold Char.toLower
      rw [dif_neg]
      rw [ge_iff_le, UInt32.le_iff_toNat_le, UInt32.le_iff_toNat_le]
      exact hupper
    rwa [hsame] at h

/-- Characters of one token: no blanks and no commas. -/
def Solid (w : Text) : Prop := ∀ c ∈ w, isSpace c = false ∧ c ≠ ','

theorem solid_of_isWordChar (h : ∀ c ∈ w, isWordChar c = true) : Solid w := by
  intro c hc
  have hword := h c hc
  simp only [isWordChar, Bool.and_eq_true, Bool.not_eq_true', decide_eq_true_eq] at hword
  exact hword.1

theorem isWordChar_key {key : Text} {k : Keyword} (h : toLower key = k.name) :
    ∀ c ∈ key, isWordChar c = true := by
  have hname : k.name.all isWordChar = true := by
    cases k <;> decide
  intro c hc
  have hmem : c.toLower ∈ k.name := by
    rw [← h]
    exact List.mem_map_of_mem hc
  exact isWordChar_of_toLower (List.all_eq_true.mp hname _ hmem)

theorem ne_eq_of_isWordChar (h : ∀ c ∈ w, isWordChar c = true) : '=' ∉ w := by
  intro hmem
  exact absurd (h _ hmem) (by decide)

theorem key_ne_nil {key : Text} {k : Keyword} (h : toLower key = k.name) : key ≠ [] := by
  rintro rfl
  cases k <;> cases h

/-! ## Commas -/

theorem replaceCommas_blanks (hb : Blanks b) (spaces rest : Text) :
    replaceCommas false spaces (b ++ rest) = replaceCommas false (spaces ++ b) rest := by
  induction b generalizing spaces with
  | nil => simp
  | cons c b ih =>
    obtain ⟨hspace, hcomma⟩ := hb.isReSpace c List.mem_cons_self
    have ih := ih (fun d hd => hb d (List.mem_cons_of_mem _ hd)) (spaces ++ [c])
    simp [replaceCommas, hspace, hcomma, ih]

theorem replaceCommas_skip_blanks (hb : Blanks b) (rest : Text) :
    replaceCommas true [] (b ++ rest) = replaceCommas true [] rest := by
  induction b with
  | nil => rfl
  | cons c b ih =>
    obtain ⟨hspace, hcomma⟩ := hb.isReSpace c List.mem_cons_self
    have ih := ih fun d hd => hb d (List.mem_cons_of_mem _ hd)
    simp [replaceCommas, hspace, hcomma, ih]

theorem replaceCommas_solid (hne : w ≠ []) (hw : Solid w) (skip : Bool) (spaces rest : Text) :
    replaceCommas skip spaces (w ++ rest) = spaces ++ (w ++ replaceCommas false [] rest) := by
  induction w generalizing skip spaces with
  | nil => exact absurd rfl hne
  | cons c w ih =>
    obtain ⟨hspace, hcomma⟩ := hw c List.mem_cons_self
    have hstep : replaceCommas skip spaces (c :: (w ++ rest)) =
        spaces ++ c :: replaceCommas false [] (w ++ rest) := by
      simp [replaceCommas, isSpace_of_isReSpace hspace, hcomma]
    rw [List.cons_append, hstep]
    by_cases hnil : w = []
    · simp [hnil]
    · rw [ih hnil (fun d hd => hw d (List.mem_cons_of_mem _ hd))]
      rfl

/-- The blanks around commas are removed. -/
theorem replaceCommas_value (h : ValueText ps t) (hps : ∀ p ∈ ps, p ≠ [] ∧ Solid p) (skip : Bool)
    (spaces rest : Text) :
    replaceCommas skip spaces (t ++ rest) = spaces ++ (join ps ++ replaceCommas false [] rest) := by
  induction h generalizing skip spaces with
  | one p =>
    obtain ⟨hne, hsolid⟩ := hps p List.mem_cons_self
    exact replaceCommas_solid hne hsolid skip spaces rest
  | @cons p ps b b' t hb hb' ht ih =>
    obtain ⟨hne, hsolid⟩ := hps p List.mem_cons_self
    have hrest := ih (fun q hq => hps q (List.mem_cons_of_mem _ hq)) true []
    have hjoin : join (p :: ps) = p ++ ',' :: join ps := by
      cases ht <;> rfl
    have hcomma : replaceCommas false b (',' :: (b' ++ (t ++ rest))) =
        ',' :: (join ps ++ replaceCommas false [] rest) := by
      rw [replaceCommas, if_pos rfl, replaceCommas_skip_blanks hb', hrest, List.nil_append]
    have hassoc : p ++ b ++ ',' :: b' ++ t ++ rest = p ++ (b ++ ',' :: (b' ++ (t ++ rest))) := by
      simp
    rw [hassoc, replaceCommas_solid hne hsolid, replaceCommas_blanks hb, List.nil_append, hcomma,
      hjoin]
    simp

/-! ## Tokens -/

/-- The written form of one token: characters, and behind them perhaps a value. -/
inductive TokenText : Text → Text → Prop where
  | solid {w : Text} : w ≠ [] → Solid w → TokenText w w
  | value {w : Text} {ps : List Text} {v : Text} : Solid w → (∀ p ∈ ps, p ≠ [] ∧ Solid p) →
      ValueText ps v → TokenText (w ++ join ps) (w ++ v)

theorem join_ne_nil (hne : ps ≠ []) (hps : ∀ p ∈ ps, p ≠ [] ∧ Solid p) : join ps ≠ [] := by
  match ps with
  | [] => exact absurd rfl hne
  | [p] => exact (hps p List.mem_cons_self).1
  | p :: q :: ps => simp [join]

/-- A value contains commas and characters of its patterns. -/
theorem mem_join {c : Char} (h : c ∈ join ps) : c = ',' ∨ ∃ p ∈ ps, c ∈ p := by
  induction ps with
  | nil => cases h
  | cons p ps ih =>
    cases ps with
    | nil => exact .inr ⟨p, List.mem_cons_self, h⟩
    | cons q ps =>
      rw [join, List.mem_append, List.mem_cons] at h
      · rcases h with hp | hcomma | hrest
        · exact .inr ⟨p, List.mem_cons_self, hp⟩
        · exact .inl hcomma
        · rcases ih hrest with hcomma | ⟨p', hp', hc⟩
          · exact .inl hcomma
          · exact .inr ⟨p', List.mem_cons_of_mem _ hp', hc⟩
      · simp

theorem isSpace_join (hps : ∀ p ∈ ps, p ≠ [] ∧ Solid p) : ∀ c ∈ join ps, isSpace c = false := by
  intro c hc
  rcases mem_join hc with rfl | ⟨p, hp, hmem⟩
  · decide
  · exact ((hps p hp).2 c hmem).1

theorem ValueText.ne_nil {v : Text} (h : ValueText ps v) : ps ≠ [] := by
  cases h <;> simp

theorem TokenText.ne_nil (h : TokenText w t) : w ≠ [] := by
  cases h with
  | solid hne => exact hne
  | value _ hps hv => simp [join_ne_nil hv.ne_nil hps]

theorem TokenText.isSpace (h : TokenText w t) : ∀ c ∈ w, isSpace c = false := by
  cases h with
  | solid _ hw => exact fun c hc => (hw c hc).1
  | value hw hps hv =>
    intro c hc
    rcases List.mem_append.mp hc with hleft | hright
    · exact (hw c hleft).1
    · exact isSpace_join hps c hright

theorem replaceCommas_token (h : TokenText w t) (spaces rest : Text) :
    replaceCommas false spaces (t ++ rest) = spaces ++ (w ++ replaceCommas false [] rest) := by
  cases h with
  | solid hne hw => exact replaceCommas_solid hne hw false spaces rest
  | @value w ps v hw hps hv =>
    by_cases hnil : w = []
    · subst hnil
      exact replaceCommas_value hv hps false spaces rest
    · rw [List.append_assoc, replaceCommas_solid hnil hw, replaceCommas_value hv hps]
      simp

/-- Tokens with blanks between them. -/
inductive TokensText : List Text → Text → Prop where
  | one {w t : Text} : TokenText w t → TokensText [w] t
  | cons {w t b s : Text} {ws : List Text} : TokenText w t → Blanks b → b ≠ [] →
      TokensText ws s → TokensText (w :: ws) (t ++ b ++ s)

theorem TokensText.append {ws ws' : List Text} {s s' b : Text} (h : TokensText ws s)
    (hb : Blanks b) (hne : b ≠ []) (h' : TokensText ws' s') :
    TokensText (ws ++ ws') (s ++ b ++ s') := by
  induction h with
  | one ht => exact .cons ht hb hne h'
  | @cons w t b₀ s ws ht hb₀ hne₀ _ ih =>
    have hassoc : t ++ b₀ ++ s ++ b ++ s' = t ++ b₀ ++ (s ++ b ++ s') := by simp
    rw [hassoc]
    exact .cons ht hb₀ hne₀ ih

theorem fields_blanks (hb : Blanks b) (t : Text) : fields (b ++ t) = fields t := by
  induction b with
  | nil => rfl
  | cons c b ih =>
    rw [List.cons_append, fields_cons_space (hb.isSpace c List.mem_cons_self)]
    exact ih fun d hd => hb d (List.mem_cons_of_mem _ hd)

/-- Blanks in front of a token are kept. -/
theorem TokensText.exists_rest {ws : List Text} (h : TokensText ws s) (spaces rest : Text) :
    ∃ x, replaceCommas false spaces (s ++ rest) = spaces ++ x := by
  cases h with
  | one ht => exact ⟨_, replaceCommas_token ht spaces rest⟩
  | @cons w t b s ws ht _ _ _ =>
    rw [List.append_assoc, List.append_assoc]
    exact ⟨_, replaceCommas_token ht spaces _⟩

/-- **The tokens of a line** are those that were written, without the blanks. -/
theorem fields_tokens {ws : List Text} {s b' : Text} (h : TokensText ws s) (hb' : Blanks b')
    {spaces : Text} (hspaces : Blanks spaces) :
    fields (replaceCommas false spaces (s ++ b')) = ws := by
  -- blanks at the end stay as they are
  have hend : replaceCommas false [] b' = b' := by
    have := replaceCommas_blanks hb' [] []
    rwa [List.append_nil, replaceCommas, List.nil_append] at this
  induction h generalizing spaces with
  | @one w t ht =>
    have hhead : ∀ c ∈ b'.head?, isSpace c = true := fun c hc =>
      hb'.isSpace c (List.mem_of_mem_head? hc)
    have hnil : fields b' = [] := by
      rw [← List.append_nil b', fields_blanks hb']
      rfl
    rw [replaceCommas_token ht, fields_blanks hspaces, hend,
      fields_append ht.ne_nil ht.isSpace hhead, hnil]
  | @cons w t b s ws ht hb hne hs ih =>
    have hassoc : t ++ b ++ s ++ b' = t ++ (b ++ (s ++ b')) := by simp
    rw [hassoc, replaceCommas_token ht, fields_blanks hspaces, replaceCommas_blanks hb,
      List.nil_append]
    have hhead : ∀ c ∈ (replaceCommas false b (s ++ b')).head?, isSpace c = true := by
      obtain ⟨x, hx⟩ := hs.exists_rest b b'
      obtain ⟨d, b, rfl⟩ := List.exists_cons_of_ne_nil hne
      rw [hx]
      intro c hc
      obtain rfl : d = c := by simpa using hc
      exact hb.isSpace d List.mem_cons_self
    rw [fields_append ht.ne_nil ht.isSpace hhead, ih hb]

/-! ## Criteria -/

theorem Criterion.solid (c : Criterion) : ∀ p ∈ c.patterns, p ≠ [] ∧ Solid p := by
  intro p hp
  obtain ⟨hne, hall⟩ := c.words p hp
  exact ⟨hne, solid_of_isWordChar (List.all_eq_true.mp hall)⟩

theorem solid_append {a b : Text} (ha : Solid a) (hb : Solid b) : Solid (a ++ b) := by
  intro c hc
  rcases List.mem_append.mp hc with h | h
  · exact ha c h
  · exact hb c h

theorem solid_eq : Solid ['='] := by
  intro c hc
  obtain rfl := List.mem_singleton.mp hc
  decide

/-- Each form consists of the tokens of one style. -/
theorem CriterionText.exists_tokens {c : Criterion} (h : CriterionText c t) :
    ∃ key style, toLower key = c.keyword.name ∧
      TokensText ((written key (join c.patterns) style).1 ::
        (written key (join c.patterns) style).2) t := by
  have hvalue : ∀ v, ValueText c.patterns v → TokenText (join c.patterns) v := fun v hv =>
    .value (w := []) (by simp [Solid]) c.solid hv
  have heq : TokenText ['='] ['='] := .solid (by simp) solid_eq
  have hkey : ∀ key, toLower key = c.keyword.name → Solid key := fun key hkey =>
    solid_of_isWordChar (isWordChar_key hkey)
  cases h with
  | @blank key b v hlower hb hne hv =>
    refine ⟨key, .blank, hlower, .cons ?_ hb hne (.one (hvalue v hv))⟩
    exact .solid (key_ne_nil hlower) (hkey key hlower)
  | @eq key v hlower hv =>
    refine ⟨key, .eq, hlower, .one ?_⟩
    have htoken := TokenText.value (solid_append (hkey key hlower) solid_eq) c.solid hv
    simpa [written] using htoken
  | @blankEq key b v hlower hb hne hv =>
    refine ⟨key, .blankEq, hlower, .cons ?_ hb hne (.one (.value solid_eq c.solid hv))⟩
    exact .solid (key_ne_nil hlower) (hkey key hlower)
  | @eqBlank key b v hlower hb hne hv =>
    refine ⟨key, .eqBlank, hlower, .cons ?_ hb hne (.one (hvalue v hv))⟩
    exact .solid (by simp [written]) (solid_append (hkey key hlower) solid_eq)
  | @blankEqBlank key b b' v hlower hb hne hb' hne' hv =>
    refine ⟨key, .blankEqBlank, hlower, .cons ?_ hb hne (.cons heq hb' hne' (.one (hvalue v hv)))⟩
    exact .solid (key_ne_nil hlower) (hkey key hlower)

/-- What the loop should read from a criterion. -/
def Criterion.read (c : Criterion) : Text × Text := (c.keyword.name, join c.patterns)

/-- A written criterion in front of a line. -/
theorem Criterion.matchLine (c : Criterion) {key : Text} (hkey : toLower key = c.keyword.name)
    (style : Style) {rest : List Text} {ds : List (Text × Text)} (hrest : AllTakesValue rest ds) :
    AllTakesValue ((written key (join c.patterns) style).1 ::
      ((written key (join c.patterns) style).2 ++ rest)) (c.read :: ds) := by
  have hhead : (join c.patterns).head? ≠ some '=' := by
    intro hhead
    rcases mem_join (List.mem_of_mem_head? hhead) with hcomma | ⟨p, hp, hmem⟩
    · exact absurd hcomma (by decide)
    · exact ne_eq_of_isWordChar (List.all_eq_true.mp (c.words p hp).2) hmem
  rw [Criterion.read, ← hkey]
  exact .value key _ style (ne_eq_of_isWordChar (isWordChar_key hkey))
    (join_ne_nil c.some_pattern c.solid) (fun _ => ⟨hhead, id⟩) hrest

/-- Criteria in any style are those of their tokens. -/
theorem CriteriaText.exists_tokens {cs : List Criterion} (h : CriteriaText cs s) :
    ∃ ws, TokensText ws s ∧ AllTakesValue ws (cs.map Criterion.read) := by
  induction h with
  | @one c t ht =>
    obtain ⟨key, style, hkey, htokens⟩ := ht.exists_tokens
    have hline := c.matchLine hkey style .nil
    rw [List.append_nil] at hline
    exact ⟨_, htokens, hline⟩
  | @cons c t b s cs ht hb hne _ ih =>
    obtain ⟨key, style, hkey, htokens⟩ := ht.exists_tokens
    obtain ⟨ws, hws, hline⟩ := ih
    exact ⟨_, htokens.append hb hne hws, c.matchLine hkey style hline⟩

/-- **A written line has the criteria that were written.** -/
theorem criteria_written {cs : List Criterion} {line : Text} (h : LineText cs line) :
    criteria line = cs.map Criterion.read := by
  cases h with
  | empty hb =>
    have htokens : matchTokens line = [] := by
      have hblanks := replaceCommas_blanks hb [] []
      rw [List.append_nil, List.nil_append, replaceCommas] at hblanks
      rw [matchTokens, hblanks, ← List.append_nil line, fields_blanks hb]
      rfl
    simp [criteria, htokens, criteriaLoop]
  | @criteria _ b s b' hb hs hb' =>
    obtain ⟨ws, hws, hline⟩ := hs.exists_tokens
    have htokens : matchTokens (b ++ s ++ b') = ws := by
      rw [matchTokens, List.append_assoc, replaceCommas_blanks hb, List.nil_append]
      exact fields_tokens hws hb' hb
    exact MatchLine.criteria_eq (htokens ▸ hline)

/-- The evaluation depends on the criteria alone. -/
theorem evalMatchLine_congr {line line' : Text} (h : criteria line = criteria line') (user : Text)
    (groups : List Text) : evalMatchLine line user groups = evalMatchLine line' user groups := by
  have hnil : ∀ l, matchTokens l = [] ↔ criteria l = [] := by
    intro l
    unfold criteria
    cases matchTokens l with
    | nil => simp [criteriaLoop]
    | cons token rest => simp [criteriaLoop]
  have hloop : ∀ l, matchLoop (matchTokens l) (matchTokens l).length 0 [] =
      (criteria l).flatMap condsOf := by
    intro l
    rw [matchLoop_eq, List.nil_append, List.drop_zero, criteria]
  simp only [evalMatchLine, hnil, hloop, h]

/-! ## The plain form -/

theorem valueText_join (h : ps ≠ []) : ValueText ps (join ps) := by
  induction ps with
  | nil => exact absurd rfl h
  | cons p ps ih =>
    cases ps with
    | nil => exact .one p
    | cons q ps =>
      have hnone : Blanks [] := by simp [Blanks]
      simpa [join] using ValueText.cons p hnone hnone (ih (by simp))

theorem criterionText_plain (c : Criterion) : CriterionText c (plainCriterion c) := by
  apply CriterionText.eq _ (valueText_join c.some_pattern)
  cases c.keyword <;> decide

theorem lineText_plain (cs : List Criterion) : LineText cs (plainLine cs) := by
  have hnone : Blanks [] := by simp [Blanks]
  have hcriteria : ∀ cs, cs ≠ [] → CriteriaText cs (plainLine cs) := by
    intro cs hne
    induction cs with
    | nil => exact absurd rfl hne
    | cons c cs ih =>
      cases cs with
      | nil => exact .one (criterionText_plain c)
      | cons d cs =>
        have hblank : Blanks [' '] := by simp [Blanks]
        simpa [plainLine] using
          CriteriaText.cons (criterionText_plain c) hblank (by simp) (ih (by simp))
  cases cs with
  | nil => exact .empty hnone
  | cons c cs => simpa using LineText.criteria hnone (hcriteria (c :: cs) (by simp)) hnone

/-- **All forms are equivalent.**  However a list of criteria is written, the line is evaluated
    like its plain form. -/
theorem forms_equivalent (cs : List Criterion) (line user : Text) (groups : List Text)
    (h : LineText cs line) :
    evalMatchLine line user groups = evalMatchLine (plainLine cs) user groups := by
  apply evalMatchLine_congr
  rw [criteria_written h, criteria_written (lineText_plain cs)]

def johnOrMary : Criterion where
  keyword := .user
  patterns := ["john".toList, "mary".toList]
  some_pattern := by simp
  words := by decide +kernel

def admins : Criterion where
  keyword := .group
  patterns := ["admin".toList]
  some_pattern := by simp
  words := by decide +kernel

/-- The line `USER = john ,mary  Group<tab>admin`, with a blank at its end. -/
theorem mixed_forms_equivalent :
    evalMatchLine ([] ++ ("USER".toList ++ [' '] ++ (['='] ++ [' '] ++
        ("john".toList ++ [' '] ++ ',' :: [] ++ "mary".toList)) ++ [' ', ' '] ++
        ("Group".toList ++ ['\t'] ++ "admin".toList)) ++ [' ']) "mary".toList ["admin".toList] =
      evalMatchLine (plainLine [johnOrMary, admins]) "mary".toList ["admin".toList] := by
  have hblank : Blanks [' '] := by simp [Blanks]
  have hnone : Blanks [] := by simp [Blanks]
  refine forms_equivalent [johnOrMary, admins] _ _ _ (.criteria hnone (.cons ?_ ?_ ?_ (.one ?_)) hblank)
  · exact .blankEqBlank (by decide +kernel) hblank (by simp) hblank (by simp)
      (.cons _ hblank hnone (.one _))
  · simp [Blanks]
  · simp
  · exact .blank (by decide +kernel) (by simp [Blanks]) (by simp) (.one _)

end Sshd
