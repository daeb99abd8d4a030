import Tssh.Framework.Utf8
import Tssh.Sshd.Glob
import Mathlib.Algebra.Ring.Nat

/-! # Patterns of Expect

    `waitForPattern` in `tssh/expect.go` collects what the remote program prints until the text
    matches a wildcard pattern.  The text is not the output itself: **each read** is escaped by
    `strconv.QuoteToASCII`, and the escaped reads are appended.  A character outside ASCII
    becomes `é`, but its bytes become `\xc3` and `\xa9` when a read ends between them.

    * `waitForPattern_matched_iff`: the loop has returned after some reads exactly if the text
      of all of them matches.
    * `reads_match_iff`: for every pattern the reads match like one read of the same bytes,
      exactly if no read ends inside a character.
-/

open Go Utf8

namespace Expect

abbrev Text := List Char

/-! ## `strconv.QuoteToASCII` -/

def lowerhex (n : Nat) : Char := "0123456789abcdef".toList.getD n '0'

/-- `n` hexadecimal digits, the most significant one first. -/
def hexDigits : Nat → Nat → Text
  | 0, _ => []
  | n + 1, v => lowerhex (v / 16 ^ n % 16) :: hexDigits n v

/-- `\xNN`, for a byte. -/
def escapedByte (v : Nat) : Text := '\\' :: 'x' :: hexDigits 2 v

/-- The control characters that have a letter. -/
def escapeLetter : Nat → Option Char
  | 0x07 => some 'a'
  | 0x08 => some 'b'
  | 0x0C => some 'f'
  | 0x0A => some 'n'
  | 0x0D => some 'r'
  | 0x09 => some 't'
  | 0x0B => some 'v'
  | _ => none

/-- `appendEscapedRune` for the quote `"`, with `ASCIIonly`. -/
def appendEscapedRune (c : Char) : Text :=
  if c = '"' ∨ c = '\\' then ['\\', c]
  -- r < utf8.RuneSelf && IsPrint(r)
  else if 0x20 ≤ c.toNat ∧ c.toNat ≤ 0x7E then [c]
  else
    match escapeLetter c.toNat with
    | some letter => ['\\', letter]
    | none =>
      if c.toNat < 0x20 ∨ c.toNat = 0x7F then escapedByte c.toNat
      else if c.toNat < 0x10000 then '\\' :: 'u' :: hexDigits 4 c.toNat
      else '\\' :: 'U' :: hexDigits 8 c.toNat

/-- One round of `appendQuotedWith`: a byte that is no character is written as it is. -/
def quoteRune : Rune → Text
  | .valid c => appendEscapedRune c
  | .invalid b => escapedByte b.toNat

def quoteToASCII (buf : Bytes) : Text := '"' :: (runes buf).flatMap quoteRune ++ ['"']

example : quoteToASCII [0x61, 0xc3, 0xa9, 0xc3, 0x0a] = "\"a\\u00e9\\xc3\\n\"".toList := by
  decide +kernel

/-! ## The loop -/

/-- `wildcardToRegexp` of `tssh/comm.go`: without anchors. -/
def wildcardToRegexp (pattern : Bytes) : Text :=
  ((runes pattern).map Rune.value).flatMap Sshd.Expr.translate

/-- `output[1 : len(output)-1]`. -/
def unquoted (output : Text) : Text := output.tail.dropLast

/-- What is known after some reads. -/
inductive Outcome where
  /-- The expression does not compile. -/
  | failed
  /-- The text matched; it is returned. -/
  | matched (text : Text)
  /-- No match yet; the text so far is in the builder. -/
  | waiting (text : Text)
  deriving DecidableEq, Repr

/-- `pattern != "" && re.MatchString(text)`. -/
def matches? (pattern : Bytes) (re : List Regex.Node) (text : Text) : Bool :=
  pattern ≠ [] && Regex.matchString re text

def waitLoop (pattern : Bytes) (re : List Regex.Node) : Text → List Bytes → Outcome
  | builder, [] => .waiting builder
  | builder, buf :: bufs =>
    if buf = [] then waitLoop pattern re builder bufs
    else
      let builder := builder ++ unquoted (quoteToASCII buf)
      if matches? pattern re builder then .matched builder
      else waitLoop pattern re builder bufs

/-- `waitForPattern`, for the buffers that it receives. -/
def waitForPattern (pattern : Bytes) (bufs : List Bytes) : Outcome :=
  match Regex.compile (wildcardToRegexp pattern) with
  | none => .failed
  | some re => waitLoop pattern re [] bufs

/-- The text accumulated from some reads. -/
def accumulated (reads : List Bytes) : Text := reads.flatMap fun buf => unquoted (quoteToASCII buf)

/-- Whether the text matches the pattern. -/
def matchesPattern (pattern : Bytes) (text : Text) : Bool :=
  match Regex.compile (wildcardToRegexp pattern) with
  | none => false
  | some re => matches? pattern re text

/-! ## Escaped texts -/

/-- The escaped bytes, without the quotes around them. -/
def quoted (buf : Bytes) : Text := (runes buf).flatMap quoteRune

@[simp] theorem unquoted_quoteToASCII (buf : Bytes) : unquoted (quoteToASCII buf) = quoted buf := by
  simp [unquoted, quoteToASCII, quoted]

theorem accumulated_cons (buf : Bytes) (reads : List Bytes) :
    accumulated (buf :: reads) = quoted buf ++ accumulated reads := by
  simp [accumulated]

theorem accumulated_append (reads reads' : List Bytes) :
    accumulated (reads ++ reads') = accumulated reads ++ accumulated reads' := by
  simp [accumulated]

theorem accumulated_singleton (buf : Bytes) : accumulated [buf] = quoted buf := by
  simp [accumulated]

@[simp] theorem length_hexDigits (n v : Nat) : (hexDigits n v).length = n := by
  induction n with
  | zero => rfl
  | succ n ih => simp [hexDigits, ih]

theorem lowerhex_ne_newline {n : Nat} (h : n < 16) : lowerhex n ≠ '\n' := by
  have hall : ∀ n < 16, lowerhex n ≠ '\n' := by decide
  exact hall n h

theorem newline_not_mem_hexDigits (n v : Nat) : '\n' ∉ hexDigits n v := by
  induction n with
  | zero => simp [hexDigits]
  | succ n ih =>
    rw [hexDigits, List.mem_cons, not_or]
    exact ⟨(lowerhex_ne_newline (Nat.mod_lt _ (by decide))).symm, ih⟩

theorem newline_not_mem_escapedByte (v : Nat) : '\n' ∉ escapedByte v := by
  simp [escapedByte, newline_not_mem_hexDigits]

theorem escapeLetter_ne_newline {n : Nat} {letter : Char} (h : escapeLetter n = some letter) :
    letter ≠ '\n' := by
  unfold escapeLetter at h
  split at h <;> cases h <;> decide

theorem escapeLetter_eq_none {n : Nat} (h : 0x0D < n) : escapeLetter n = none := by
  unfold escapeLetter
  split <;> first | omega | rfl

theorem newline_not_mem_appendEscapedRune (c : Char) : '\n' ∉ appendEscapedRune c := by
  unfold appendEscapedRune
  by_cases hquote : c = '"' ∨ c = '\\'
  · rw [if_pos hquote]
    rcases hquote with rfl | rfl <;> decide
  rw [if_neg hquote]
  by_cases hprint : 0x20 ≤ c.toNat ∧ c.toNat ≤ 0x7E
  · rw [if_pos hprint, List.mem_singleton]
    rintro rfl
    exact absurd hprint (by decide)
  rw [if_neg hprint]
  cases hletter : escapeLetter c.toNat with
  | some letter => simp [(escapeLetter_ne_newline hletter).symm]
  | none =>
    show '\n' ∉ ite _ _ _
    split
    next => exact newline_not_mem_escapedByte c.toNat
    next => split <;> simp [newline_not_mem_hexDigits]

/-- Escaped text is one line. -/
theorem newline_not_mem_quoteRune (r : Rune) : '\n' ∉ quoteRune r := by
  cases r with
  | invalid b => exact newline_not_mem_escapedByte b.toNat
  | valid c => exact newline_not_mem_appendEscapedRune c

theorem newline_not_mem_accumulated (reads : List Bytes) : '\n' ∉ accumulated reads := by
  simp only [accumulated, unquoted_quoteToASCII, quoted, List.mem_flatMap, not_exists, not_and]
  intro buf _ r _
  exact newline_not_mem_quoteRune r

/-! ### Lengths -/

@[simp] theorem length_escapedByte (v : Nat) : (escapedByte v).length = 4 := by
  simp [escapedByte]

/-- A character of several bytes is written shorter than its bytes are. -/
theorem length_appendEscapedRune_lt {c : Char} (h : 2 ≤ c.utf8Size) :
    (appendEscapedRune c).length < 4 * c.utf8Size := by
  have hbig : 128 ≤ c.toNat := by
    by_contra hsmall
    have hone : c.utf8Size = 1 := by
      rw [Char.utf8Size_eq_one_iff, UInt32.le_iff_toNat_le]
      exact Nat.le_of_lt_succ (Nat.lt_of_not_le hsmall)
    omega
  have hne : ¬ (c = '"' ∨ c = '\\') := by
    rintro (rfl | rfl) <;> exact absurd hbig (by decide)
  unfold appendEscapedRune
  simp only [if_neg hne, if_neg (show ¬ (0x20 ≤ c.toNat ∧ c.toNat ≤ 0x7E) by omega),
    escapeLetter_eq_none (show 0x0D < c.toNat by omega),
    if_neg (show ¬ (c.toNat < 0x20 ∨ c.toNat = 0x7F) by omega)]
  split
  next =>
    simp only [List.length_cons, length_hexDigits]
    omega
  next hfour =>
    have hsize : c.utf8Size = 4 := by
      rw [Char.utf8Size_eq_four_iff, UInt32.lt_iff_toNat_lt]
      show 0xFFFF < c.toNat
      omega
    simp only [List.length_cons, length_hexDigits]
    omega

theorem length_quoted_append_lt {a bs : Bytes} (h : Splits a bs) :
    (quoted (a ++ bs)).length < (quoted a).length + (quoted bs).length := by
  obtain ⟨c, x, y, before, after, hc, hx, hy, hwhole, ha, hbs⟩ := h.exists_runes
  have hsize : x.length + y.length = c.utf8Size := by
    rw [← length_encode, hc, List.length_append]
  have hxpos := List.length_pos_iff.mpr hx
  have hypos := List.length_pos_iff.mpr hy
  have hlt := length_appendEscapedRune_lt (show 2 ≤ c.utf8Size by omega)
  -- every byte of the two parts is written as four characters
  have hparts : ∀ z : Bytes, ((z.map Rune.invalid).flatMap quoteRune).length = 4 * z.length := by
    intro z
    induction z with
    | nil => rfl
    | cons b z ih =>
      simp only [List.map_cons, List.flatMap_cons, List.length_append, ih, quoteRune,
        length_escapedByte, List.length_cons]
      omega
  have hchar : quoteRune (.valid c) = appendEscapedRune c := rfl
  simp only [quoted, hwhole, ha, hbs, List.flatMap_append, List.flatMap_cons, List.length_append,
    hparts, hchar]
  omega

theorem quoted_append {a bs : Bytes} (h : ¬ Splits a bs) :
    quoted (a ++ bs) = quoted a ++ quoted bs := by
  rw [quoted, runes_append h, List.flatMap_append]
  rfl

theorem length_quoted_append_le (a bs : Bytes) :
    (quoted (a ++ bs)).length ≤ (quoted a).length + (quoted bs).length := by
  by_cases h : Splits a bs
  · exact Nat.le_of_lt (length_quoted_append_lt h)
  · have heq := congrArg List.length (quoted_append h)
    rw [List.length_append] at heq
    exact Nat.le_of_eq heq

/-! ## Reads -/

/-- No read ends inside a character. -/
def WholeCharacters (reads : List Bytes) : Prop :=
  ∀ before after, reads = before ++ after → ¬ Splits before.flatten after.flatten

/-- Reads that end between characters give the text of one read. -/
theorem accumulated_eq {reads : List Bytes} (h : WholeCharacters reads) :
    accumulated reads = quoted reads.flatten := by
  induction reads with
  | nil => rfl
  | cons buf reads ih =>
    have hcut : ¬ Splits buf reads.flatten := by
      simpa using h [buf] reads rfl
    have hrest : WholeCharacters reads := by
      intro before after heq hsplits
      refine h (buf :: before) after (by rw [heq]; rfl) (hsplits.of_suffix ?_)
      rw [List.flatten_cons]
      exact List.suffix_append buf before.flatten
    rw [accumulated_cons, ih hrest, List.flatten_cons, quoted_append hcut]

theorem length_quoted_flatten_le (reads : List Bytes) :
    (quoted reads.flatten).length ≤ (accumulated reads).length := by
  induction reads with
  | nil => exact Nat.le_refl _
  | cons buf reads ih =>
    have happend := length_quoted_append_le buf reads.flatten
    rw [accumulated_cons, List.flatten_cons, List.length_append]
    omega

/-- A read that ends inside a character makes the text longer. -/
theorem length_accumulated_lt {reads : List Bytes} (h : ¬ WholeCharacters reads) :
    (quoted reads.flatten).length < (accumulated reads).length := by
  simp only [WholeCharacters, not_forall, not_not] at h
  obtain ⟨before, after, rfl, hsplits⟩ := h
  have hlt := length_quoted_append_lt hsplits
  have hbefore := length_quoted_flatten_le before
  have hafter := length_quoted_flatten_le after
  rw [accumulated_append, List.flatten_append, List.length_append]
  omega

/-! ## Patterns -/

/-- The nodes of a pattern; invalid bytes of it have become U+FFFD. -/
def nodes (pattern : Bytes) : List Regex.Node := Sshd.nodes ((runes pattern).map Rune.value)

theorem compile_wildcardToRegexp (pattern : Bytes) :
    Regex.compile (wildcardToRegexp pattern) = some (nodes pattern) := by
  have hparse := Sshd.parse_translate ((runes pattern).map Rune.value) [] []
    (show Regex.Place.other ≠ .escape by simp) (fun place hplace => by
      rw [Regex.parse_nil hplace, List.append_nil])
  simpa [Regex.compile, wildcardToRegexp, Regex.Place.pending, nodes] using hparse

theorem matchesPattern_iff (pattern : Bytes) (text : Text) :
    matchesPattern pattern text = true ↔ pattern ≠ [] ∧ Regex.Matches (nodes pattern) text := by
  rw [matchesPattern, compile_wildcardToRegexp]
  simp [matches?, Regex.matchString_iff]

theorem endText_not_mem_nodes (pattern : Bytes) : .endText ∉ nodes pattern := by
  intro h
  obtain ⟨item, -, hitem⟩ := List.mem_map.mp h
  cases item <;> cases hitem

/-- Text that matches goes on matching. -/
theorem matches?_append {pattern : Bytes} {text : Text}
    (h : matches? pattern (nodes pattern) text = true) (t : Text) :
    matches? pattern (nodes pattern) (text ++ t) = true := by
  simp only [matches?, Bool.and_eq_true, Regex.matchString_iff] at *
  exact ⟨h.1, h.2.append (endText_not_mem_nodes pattern) t⟩

/-- **Run lemma.**  By induction on the buffers: the loop returns exactly if the text of all of
    them matches, once there was a buffer to look at. -/
theorem waitLoop_matched_iff (pattern : Bytes) (builder : Text) (bufs : List Bytes)
    (h : matches? pattern (nodes pattern) builder = true → ∃ buf ∈ bufs, buf ≠ []) :
    (∃ text, waitLoop pattern (nodes pattern) builder bufs = .matched text) ↔
      matches? pattern (nodes pattern) (builder ++ accumulated bufs) = true := by
  induction bufs generalizing builder with
  | nil =>
    have hno : matches? pattern (nodes pattern) builder = false := by
      by_contra hyes
      obtain ⟨buf, hmem, -⟩ := h (by simpa using hyes)
      cases hmem
    simp [waitLoop, accumulated, hno]
  | cons buf bufs ih =>
    rw [waitLoop, accumulated_cons]
    by_cases hempty : buf = []
    · subst hempty
      rw [if_pos rfl]
      apply ih builder
      intro hyes
      simpa using h hyes
    · rw [if_neg hempty, unquoted_quoteToASCII, ← List.append_assoc]
      by_cases hmatch : matches? pattern (nodes pattern) (builder ++ quoted buf) = true
      · simp only [if_pos hmatch]
        exact iff_of_true ⟨_, rfl⟩ (matches?_append hmatch _)
      · simp only [if_neg hmatch]
        exact ih _ fun hyes => absurd hyes hmatch

/-- After some output the loop has returned exactly if the accumulated text matches. -/
theorem waitForPattern_matched_iff (pattern : Bytes) {bufs : List Bytes}
    (h : ∃ buf ∈ bufs, buf ≠ []) :
    (∃ text, waitForPattern pattern bufs = .matched text) ↔
      matchesPattern pattern (accumulated bufs) = true := by
  simp only [waitForPattern, matchesPattern, compile_wildcardToRegexp]
  exact waitLoop_matched_iff pattern [] bufs fun _ => h

/-- The pattern of `n` question marks. -/
def marks (n : Nat) : Bytes := List.replicate n 0x3F

theorem nodes_marks (n : Nat) : nodes (marks n) = List.replicate n (.one .any) := by
  induction n with
  | zero => rfl
  | succ n ih =>
    have hmark : runes (marks (n + 1)) = .valid '?' :: runes (marks n) := runes_ascii (by decide) _
    rw [nodes, hmark, List.map_cons, Sshd.nodes_cons, List.replicate_succ, ← ih]
    rfl

theorem matchesPattern_marks {n : Nat} (hn : 0 < n) {text : Text} (h : '\n' ∉ text) :
    matchesPattern (marks n) text = true ↔ n ≤ text.length := by
  have hne : marks n ≠ [] := by
    simp [marks, Nat.ne_of_gt hn]
  rw [matchesPattern_iff, nodes_marks, Regex.matches_dots h]
  simp [hne]

/-! ## Independence of the reads -/

/-- **Reads.**  For every pattern the text of the reads matches like the text of one read with the
    same bytes, exactly if no read ends inside a character: such a read makes the text
    longer, and then as many question marks as it has characters tell both apart. -/
theorem reads_match_iff (reads : List Bytes) :
    (∀ pattern, matchesPattern pattern (accumulated reads) =
      matchesPattern pattern (accumulated [reads.flatten])) ↔ WholeCharacters reads := by
  constructor
  · intro hsame
    by_contra hcut
    have hlt := length_accumulated_lt hcut
    have hpos : 0 < (accumulated reads).length := Nat.zero_lt_of_lt hlt
    have hlong : matchesPattern (marks (accumulated reads).length) (accumulated reads) = true :=
      (matchesPattern_marks hpos (newline_not_mem_accumulated reads)).mpr (Nat.le_refl _)
    rw [hsame, matchesPattern_marks hpos (newline_not_mem_accumulated _),
      accumulated_singleton] at hlong
    omega
  · intro h pattern
    rw [accumulated_eq h, accumulated_singleton]

/-- The bytes of a string. -/
def bytesOf (s : String) : Bytes := s.toList.flatMap encode

/-- The program prints `café` in one read, and the pattern `caf\u00e9` matches; with a read that
    ends after the first byte of `é` it does not. -/
theorem split_character_not_matched :
    [bytesOf "caf" ++ [0xc3], [0xa9]].flatten = bytesOf "café" ∧
    matchesPattern (bytesOf "caf\\u00e9") (accumulated [bytesOf "café"]) = true ∧
    matchesPattern (bytesOf "caf\\u00e9")
      (accumulated [bytesOf "caf" ++ [0xc3], [0xa9]]) = false ∧
    waitForPattern (bytesOf "caf\\u00e9") [bytesOf "caf" ++ [0xc3], [0xa9]] =
      .waiting "caf\\xc3\\xa9".toList := by
  decide +kernel

/-- In particular nothing is cut when every read starts with a byte that can start a
    character. -/
theorem wholeCharacters_of_starts {reads : List Bytes}
    (h : ∀ buf ∈ reads, ∀ b ∈ buf.head?, IsStart b) : WholeCharacters reads := by
  rintro before after rfl
  apply not_splits_of_start
  have hafter : ∀ buf ∈ after, ∀ b ∈ buf.head?, IsStart b := fun buf hbuf =>
    h buf (List.mem_append_right before hbuf)
  clear h
  induction after with
  | nil => simp
  | cons buf after ih =>
    cases buf with
    | nil => exact ih fun buf hbuf => hafter buf (List.mem_cons_of_mem _ hbuf)
    | cons b buf => exact hafter (b :: buf) List.mem_cons_self

theorem whole_characters_matched :
    matchesPattern (bytesOf "caf\\u00e9?") (accumulated [bytesOf "caf", bytesOf "é", bytesOf ":"]) =
      matchesPattern (bytesOf "caf\\u00e9?")
        (accumulated [[bytesOf "caf", bytesOf "é", bytesOf ":"].flatten]) :=
  (reads_match_iff _).mpr (wholeCharacters_of_starts (by decide +kernel)) _

end Expect
