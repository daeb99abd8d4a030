import Tssh.Sshd.Wildcard

/-! # Port Ranges of the Server

    The client reads the ports the server may listen on from its configuration
    (`parseTsshdPortRanges` in `tssh/udp.go`), writes them into the command line that starts
    the server (`getTsshdCommand`), and the server reads them again (`parsePortRanges` in
    `tsshd/service.go`).  Both parsers have one text: the input is cut at commas and then at
    blanks, and the tokens are read in a loop that looks one token back and one ahead.

    * **Model**: `parsePorts` with all its warnings.
    * `parsePorts_valid`: every range is a range of ports, whatever the input is.
    * `parsePorts_written`: single ports and ranges that are written with separators between
      them (`Written`) are read as they were written, without a warning.
-/

namespace Ports

open Sshd

/-! ## The code -/

/-- A low and a high port. -/
abbrev Range := UInt16 × UInt16

inductive Warning where
  /-- `port [%s] is not a value in [1, 65535]`. -/
  | notAPort (port : Text)
  /-- `port range [%d-%d] is invalid (low > high)`. -/
  | lowAboveHigh (low high : Nat)
  /-- `malformed port range [%s]`. -/
  | malformed (token : Text)
  /-- `'-' must appear between two ports`. -/
  | dashNotBetween
  /-- `malformed port range [- %s]`. -/
  | malformedAfterDash (token : Text)
  deriving DecidableEq, Repr

/-- The ranges found so far, and the warnings. -/
structure Parsed where
  ranges : List Range
  warnings : List Warning
  deriving DecidableEq, Repr

def Parsed.warn (p : Parsed) (w : Warning) : Parsed := { p with warnings := p.warnings ++ [w] }

def Parsed.append (p : Parsed) (rs : List Range) : Parsed := { p with ranges := p.ranges ++ rs }

/-- `strconv.ParseUint(s, 10, 16)`. -/
def parseUint (s : Text) : Option Nat :=
  if s ≠ [] ∧ s.all Char.isDigit ∧ Nat.ofDigitChars 10 s 0 < 65536 then
    some (Nat.ofDigitChars 10 s 0)
  else none

/-- A port number: `none` where the code warns. -/
def parsePort (s : Text) : Option Nat :=
  match parseUint s with
  | some 0 => none
  | n => n

def addPortRange (p : Parsed) (lowPort : Text) (highPort : Option Text) : Parsed :=
  match parsePort lowPort with
  | none => p.warn (.notAPort lowPort)
  | some low =>
    match highPort with
    | none => p.append [(UInt16.ofNat low, UInt16.ofNat low)]
    | some highPort =>
      match parsePort highPort with
      | none => p.warn (.notAPort highPort)
      | some high =>
        if low > high then p.warn (.lowAboveHigh low high)
        else p.append [(UInt16.ofNat low, UInt16.ofNat high)]

/-- Case 1 of the loop, a token like `8000-9000`. -/
def addCombined (p : Parsed) (token : Text) : Parsed :=
  match token.splitOn '-' with
  | [low, high] =>
    if low = [] ∨ high = [] then p.warn (.malformed token) else addPortRange p low (some high)
  | _ => p.warn (.malformed token)

/-- The loop over the tokens of a segment, from token `i` on; `k` is the last token that is
    part of a range.  Every round moves on, so as many rounds as tokens are enough. -/
def tokenLoop (tokens : List Text) : Nat → Nat → Int → Parsed → Parsed
  | 0, _, _, p => p
  | rounds + 1, i, k, p =>
    match tokens[i]? with
    | none => p
    | some token =>
      if '-' ∈ token ∧ token ≠ ['-'] then
        tokenLoop tokens rounds (i + 1) k (addCombined p token)
      else if token = ['-'] then
        -- case 2: single "-"
        if i = 0 ∨ i + 1 ≥ tokens.length ∨ (i : Int) - 1 ≤ k then
          tokenLoop tokens rounds (i + 2) k (p.warn .dashNotBetween)
        else
          tokenLoop tokens rounds (i + 2) (i + 1)
            (addPortRange p (tokens.getD (i - 1) []) (some (tokens.getD (i + 1) [])))
      else if tokens[i + 1]? = some ['-'] then
        -- case 3: part of a range, handled by "-"
        tokenLoop tokens rounds (i + 1) k p
      else if 0 < i ∧ tokens[i - 1]? = some ['-'] then
        tokenLoop tokens rounds (i + 1) k (p.warn (.malformedAfterDash token))
      else
        -- case 4: plain number
        tokenLoop tokens rounds (i + 1) k (addPortRange p token none)

/-- One segment between commas. -/
def parseTokens (p : Parsed) (tokens : List Text) : Parsed :=
  tokenLoop tokens tokens.length 0 (-1) p

/-- The tokens of the segments. -/
def tokenLists (s : Text) : List (List Text) := (s.splitOn ',').map fields

def parsePorts (s : Text) : Parsed := (tokenLists s).foldl parseTokens ⟨[], []⟩

/-- The client's parser. -/
def parseTsshdPortRanges (tsshdPort : Text) : Parsed := parsePorts tsshdPort

/-- The server's parser. -/
def parsePortRanges (tsshdPort : Text) : Parsed := parsePorts tsshdPort

/-- One range in the `--port` argument. -/
def rangeText (r : Range) : Text :=
  if r.1 = r.2 then Nat.toDigits 10 r.1.toNat
  else Nat.toDigits 10 r.1.toNat ++ '-' :: Nat.toDigits 10 r.2.toNat

/-- The `--port` argument of `getTsshdCommand`. -/
def getTsshdCommandPort : List Range → Text
  | [] => []
  | [r] => rangeText r
  | r :: rs => rangeText r ++ ',' :: getTsshdCommandPort rs

/-! ## Ranges are ranges of ports -/

/-- `1 ≤ low ≤ high`, in `uint16`. -/
def Range.Valid (r : Range) : Prop := 1 ≤ r.1.toNat ∧ r.1.toNat ≤ r.2.toNat

theorem parsePort_eq_some {s : Text} {n : Nat} (h : parsePort s = some n) :
    1 ≤ n ∧ n < 65536 := by
  unfold parsePort at h
  split at h
  · cases h
  · next hzero =>
    unfold parseUint at h hzero
    split at h
    · next hs =>
      obtain rfl := Option.some.inj h
      refine ⟨?_, hs.2.2⟩
      rw [if_pos hs] at hzero
      by_contra hlt
      exact hzero (by congr 1; omega)
    · cases h

theorem toNat_ofNat_port {n : Nat} (h : n < 65536) : (UInt16.ofNat n).toNat = n := by
  rw [UInt16.toNat_ofNat']
  exact Nat.mod_eq_of_lt h

/-- What `addPortRange` can do: warn, or add one range of ports. -/
theorem addPortRange_cases (p : Parsed) (low : Text) (high : Option Text) :
    (∃ w, addPortRange p low high = p.warn w) ∨
    ∃ r : Range, r.Valid ∧ addPortRange p low high = p.append [r] := by
  unfold addPortRange
  cases hlow : parsePort low with
  | none => exact .inl ⟨_, rfl⟩
  | some l =>
    obtain ⟨hl1, hl2⟩ := parsePort_eq_some hlow
    cases high with
    | none =>
      right
      refine ⟨(UInt16.ofNat l, UInt16.ofNat l), ?_, rfl⟩
      unfold Range.Valid
      simp only [toNat_ofNat_port hl2]
      omega
    | some high =>
      simp only
      cases hhigh : parsePort high with
      | none => exact .inl ⟨_, rfl⟩
      | some h =>
        obtain ⟨_, hh2⟩ := parsePort_eq_some hhigh
        by_cases hgt : l > h
        · exact .inl ⟨_, by simp only [hgt, if_true]; rfl⟩
        · right
          refine ⟨(UInt16.ofNat l, UInt16.ofNat h), ?_, by simp only [hgt, if_false]⟩
          unfold Range.Valid
          simp only [toNat_ofNat_port hl2, toNat_ofNat_port hh2]
          omega

def Parsed.Valid (p : Parsed) : Prop := ∀ r ∈ p.ranges, r.Valid

theorem addPortRange_valid {p : Parsed} (h : p.Valid) (low : Text) (high : Option Text) :
    (addPortRange p low high).Valid := by
  rcases addPortRange_cases p low high with ⟨w, hw⟩ | ⟨r, hr, hadd⟩
  · rw [hw]
    exact h
  · rw [hadd]
    intro r' hr'
    rcases List.mem_append.mp hr' with hold | hnew
    · exact h r' hold
    · obtain rfl := List.mem_singleton.mp hnew
      exact hr

theorem addCombined_valid {p : Parsed} (h : p.Valid) (token : Text) : (addCombined p token).Valid := by
  unfold addCombined
  split
  · split
    · exact h
    · exact addPortRange_valid h _ _
  · exact h

/-- **Step**: every round of the loop keeps the ranges valid. -/
theorem tokenLoop_valid (tokens : List Text) (rounds : Nat) :
    ∀ (i : Nat) (k : Int) (p : Parsed), p.Valid → (tokenLoop tokens rounds i k p).Valid := by
  induction rounds with
  | zero =>
    intro i k p h
    exact h
  | succ rounds ih =>
    intro i k p h
    unfold tokenLoop
    split
    · exact h
    · split_ifs
      · exact ih _ _ _ (addCombined_valid h _)
      · exact ih _ _ _ h
      · exact ih _ _ _ (addPortRange_valid h _ _)
      · exact ih _ _ _ h
      · exact ih _ _ _ h
      · exact ih _ _ _ (addPortRange_valid h _ _)

theorem parsePorts_valid (s : Text) : (parsePorts s).Valid := by
  have hfold : ∀ (lists : List (List Text)) (p : Parsed), p.Valid →
      (lists.foldl parseTokens p).Valid := by
    intro lists
    induction lists with
    | nil =>
      intro p h
      exact h
    | cons tokens lists ih =>
      intro p h
      exact ih _ (tokenLoop_valid tokens _ _ _ p h)
  exact hfold _ _ (fun r hr => absurd hr List.not_mem_nil)

/-! ## Written lists -/

/-- A port number as it is written. -/
structure Numeral where
  text : Text
  ne_nil : text ≠ []
  digits : ∀ c ∈ text, c.isDigit = true
  pos : 1 ≤ Nat.ofDigitChars 10 text 0
  lt : Nat.ofDigitChars 10 text 0 < 65536

/-- The blanks on one side of a dash. -/
structure Blanks where
  text : Text
  ne_nil : text ≠ []
  blank : ∀ c ∈ text, isSpace c = true

namespace Numeral

def value (n : Numeral) : Nat := Nat.ofDigitChars 10 n.text 0

def port (n : Numeral) : UInt16 := UInt16.ofNat n.value

end Numeral

/-- A single port, a range `a-b`, or a range `a - b`. -/
inductive Item where
  | single (n : Numeral)
  | joined (low high : Numeral) (h : low.value ≤ high.value)
  | spaced (low high : Numeral) (h : low.value ≤ high.value) (left right : Blanks)

namespace Item

def text : Item → Text
  | single n => n.text
  | joined low high _ => low.text ++ '-' :: high.text
  | spaced low high _ left right => low.text ++ (left.text ++ '-' :: (right.text ++ high.text))

def tokens : Item → List Text
  | single n => [n.text]
  | joined low high _ => [low.text ++ '-' :: high.text]
  | spaced low high _ _ _ => [low.text, ['-'], high.text]

def range : Item → Range
  | single n => (n.port, n.port)
  | joined low high _ => (low.port, high.port)
  | spaced low high _ _ _ => (low.port, high.port)

end Item

/-- Here an item may end: at the end of the text, at a comma or at a blank. -/
def Ends (t : Text) : Prop := ∀ c ∈ t.head?, c = ',' ∨ isSpace c = true

/-- **Items written one after another** with commas and blanks between them. -/
inductive Written : List Item → Text → Prop where
  | nil : Written [] []
  | comma {items t} : Written items t → Written items (',' :: t)
  | blank {items t} (c : Char) : isSpace c = true → Written items t → Written items (c :: t)
  | item {items t} (it : Item) : Ends t → Written items t → Written (it :: items) (it.text ++ t)

/-! ### Cutting the text -/

/-- Characters that do not end a token. -/
def Word (w : Text) : Prop := w ≠ [] ∧ ∀ c ∈ w, c ≠ ',' ∧ isSpace c = false

theorem isSpace_of_isDigit {c : Char} (h : c.isDigit = true) : isSpace c = false := by
  simp only [Char.isDigit, Bool.and_eq_true, decide_eq_true_eq] at h
  have hlow : 48 ≤ c.toNat := h.1
  have hhigh : c.toNat ≤ 57 := h.2
  exact isSpace_of_visible (by omega) (by omega)

theorem Numeral.word (n : Numeral) : Word n.text := by
  refine ⟨n.ne_nil, fun c hc => ⟨?_, isSpace_of_isDigit (n.digits c hc)⟩⟩
  rintro rfl
  exact absurd (n.digits _ hc) (by decide)

theorem word_dash : Word ['-'] := by
  refine ⟨by simp, ?_⟩
  intro c hc
  obtain rfl := List.mem_singleton.mp hc
  decide

theorem Word.append {a b : Text} (ha : Word a) (hb : Word b) : Word (a ++ b) := by
  refine ⟨by simp [ha.1], ?_⟩
  intro c hc
  rcases List.mem_append.mp hc with h | h
  · exact ha.2 c h
  · exact hb.2 c h

theorem Word.fields_append {w t : Text} (hw : Word w) (ht : ∀ c ∈ t.head?, isSpace c = true) :
    fields (w ++ t) = w :: fields t :=
  Sshd.fields_append hw.1 (fun c hc => (hw.2 c hc).2) ht

/-- At a comma a segment ends. -/
theorem tokenLists_comma (t : Text) : tokenLists (',' :: t) = [] :: tokenLists t := by
  rw [tokenLists, List.splitOn, List.splitOnP_cons_eq_if_modifyHead, if_pos (by decide)]
  rfl

theorem tokenLists_blank {c : Char} (hc : isSpace c = true) (t : Text) :
    tokenLists (c :: t) = tokenLists t := by
  have hcomma : ¬ (c == ',') = true := by
    intro heq
    rw [beq_iff_eq.mp heq] at hc
    exact absurd hc (by decide)
  rw [tokenLists, List.splitOn, List.splitOnP_cons_eq_if_modifyHead, if_neg hcomma, tokenLists,
    List.splitOn]
  cases t.splitOnP (· == ',') with
  | nil => rfl
  | cons seg segs => simp [fields_cons_space hc]

/-- A word is the first token of its segment. -/
theorem tokenLists_word {w t : Text} (hw : Word w) (ht : Ends t) :
    tokenLists (w ++ t) = (tokenLists t).modifyHead (w :: ·) := by
  have hnocomma : ∀ c ∈ w, (c == ',') = false := fun c hc => by simpa using (hw.2 c hc).1
  rw [tokenLists, List.splitOn, splitOnP_append_left hnocomma, tokenLists, List.splitOn]
  match t with
  | [] =>
    have hfields := hw.fields_append (t := []) (by simp)
    simpa using hfields
  | c :: t =>
    rw [List.splitOnP_cons_eq_if_modifyHead]
    by_cases hcomma : c = ','
    · -- the segment ends with the word
      have hfields := hw.fields_append (t := []) (by simp)
      rw [if_pos (by simpa using hcomma)]
      simpa using hfields
    · have hspace : isSpace c = true := (ht c rfl).resolve_left hcomma
      rw [if_neg (by simpa using hcomma)]
      cases t.splitOnP (· == ',') with
      | nil => rfl
      | cons seg segs =>
        have hfields := hw.fields_append (t := c :: seg) (by simpa using hspace)
        simpa using hfields

theorem tokenLists_blanks {b : Text} (hb : ∀ c ∈ b, isSpace c = true) (t : Text) :
    tokenLists (b ++ t) = tokenLists t := by
  induction b with
  | nil => rfl
  | cons c b ih =>
    rw [List.cons_append, tokenLists_blank (hb c List.mem_cons_self)]
    exact ih fun d hd => hb d (List.mem_cons_of_mem _ hd)

/-- Blanks end a word. -/
theorem Blanks.ends (b : Blanks) (t : Text) : Ends (b.text ++ t) := by
  obtain ⟨text, hne, hblank⟩ := b
  obtain ⟨c, text, rfl⟩ := List.exists_cons_of_ne_nil hne
  intro d hd
  obtain rfl : c = d := by simpa using hd
  exact .inr (hblank c List.mem_cons_self)

/-- **An item gives its tokens** to its segment. -/
theorem tokenLists_item (it : Item) {t : Text} (ht : Ends t) :
    tokenLists (it.text ++ t) = (tokenLists t).modifyHead (it.tokens ++ ·) := by
  cases it with
  | single n => exact tokenLists_word n.word ht
  | joined low high _ =>
    have hword : Word (low.text ++ '-' :: high.text) :=
      low.word.append (word_dash.append high.word)
    exact tokenLists_word hword ht
  | spaced low high _ left right =>
    have htext : (Item.spaced low high ‹_› left right).text ++ t =
        low.text ++ (left.text ++ (['-'] ++ (right.text ++ (high.text ++ t)))) := by
      simp [Item.text]
    rw [htext, tokenLists_word low.word (left.ends _), tokenLists_blanks left.blank,
      tokenLists_word word_dash (right.ends _), tokenLists_blanks right.blank,
      tokenLists_word high.word ht]
    cases tokenLists t with
    | nil => rfl
    | cons seg segs => rfl

/-- The segments of a written list hold its items in order. -/
theorem Written.tokenLists_eq {items : List Item} {t : Text} (h : Written items t) :
    ∃ groups : List (List Item), groups ≠ [] ∧ groups.flatten = items ∧
      tokenLists t = groups.map (·.flatMap Item.tokens) := by
  induction h with
  | nil => exact ⟨[[]], by simp, rfl, rfl⟩
  | comma _ ih =>
    obtain ⟨groups, _, hflat, heq⟩ := ih
    exact ⟨[] :: groups, by simp, hflat, by rw [tokenLists_comma, heq]; rfl⟩
  | blank c hc _ ih =>
    rw [tokenLists_blank hc]
    exact ih
  | item it hends _ ih =>
    obtain ⟨groups, hne, hflat, heq⟩ := ih
    obtain ⟨g, groups, rfl⟩ := List.exists_cons_of_ne_nil hne
    refine ⟨(it :: g) :: groups, by simp, ?_, ?_⟩
    · rw [← hflat]
      rfl
    · rw [tokenLists_item it hends, heq]
      rfl

/-! ### The loop on written items -/

namespace Numeral

theorem dash_not_mem (n : Numeral) : '-' ∉ n.text := fun h =>
  absurd (n.digits _ h) (by decide)

theorem ne_dash (n : Numeral) : n.text ≠ ['-'] := fun h =>
  n.dash_not_mem (by rw [h]; exact List.mem_singleton_self _)

theorem parsePort_text (n : Numeral) : parsePort n.text = some n.value := by
  have hall : n.text.all Char.isDigit = true := List.all_eq_true.mpr n.digits
  have hparse : parseUint n.text = some n.value := if_pos ⟨n.ne_nil, hall, n.lt⟩
  have hpos : n.value ≠ 0 := Nat.one_le_iff_ne_zero.mp n.pos
  unfold parsePort
  rw [hparse]
  split
  · next hzero => exact absurd (Option.some.inj hzero) hpos
  · rfl

end Numeral

theorem addPortRange_single (p : Parsed) (n : Numeral) :
    addPortRange p n.text none = p.append [(n.port, n.port)] := by
  simp only [addPortRange, n.parsePort_text]
  rfl

theorem addPortRange_pair (p : Parsed) {low high : Numeral} (h : low.value ≤ high.value) :
    addPortRange p low.text (some high.text) = p.append [(low.port, high.port)] := by
  simp only [addPortRange, low.parsePort_text, high.parsePort_text, if_neg (Nat.not_lt.mpr h)]
  rfl

theorem addCombined_joined (p : Parsed) {low high : Numeral} (h : low.value ≤ high.value) :
    addCombined p (low.text ++ '-' :: high.text) = p.append [(low.port, high.port)] := by
  have hno : ∀ n : Numeral, ∀ c ∈ n.text, (c == '-') = false := by
    intro n c hc
    rw [beq_eq_false_iff_ne]
    rintro rfl
    exact n.dash_not_mem hc
  have hhigh : high.text.splitOnP (· == '-') = [high.text] := by
    have hsplit := splitOnP_append_left (hno high) []
    simpa using hsplit
  have hparts : (low.text ++ '-' :: high.text).splitOn '-' = [low.text, high.text] := by
    rw [List.splitOn, splitOnP_append_left (hno low), List.splitOnP_cons_eq_if_modifyHead,
      if_pos (by decide), hhigh]
    simp
  simp only [addCombined, hparts, low.ne_nil, high.ne_nil, or_self, if_false]
  exact addPortRange_pair p h

/-- An item never begins with a dash. -/
theorem head_tokens_ne_dash (items : List Item) :
    (items.flatMap Item.tokens)[0]? ≠ some ['-'] := by
  match items with
  | [] => simp
  | .single n :: items => simpa [Item.tokens] using n.ne_dash
  | .joined low high h :: items =>
    simp only [List.flatMap_cons, Item.tokens, List.cons_append, List.getElem?_cons_zero, ne_eq,
      Option.some.injEq]
    intro heq
    have hlen := congrArg List.length heq
    have hlow := List.length_pos_of_ne_nil low.ne_nil
    simp only [List.length_append, List.length_cons, List.length_nil] at hlen
    omega
  | .spaced low high h left right :: items => simpa [Item.tokens] using low.ne_dash

/-- Nor does it end with one. -/
theorem getLast_tokens_ne_dash (it : Item) : it.tokens.getLast? ≠ some ['-'] := by
  cases it with
  | single n => simpa [Item.tokens] using n.ne_dash
  | joined low high h =>
    have hhead := head_tokens_ne_dash [.joined low high h]
    simpa [Item.tokens] using hhead
  | spaced low high h left right => simpa [Item.tokens] using high.ne_dash

/-- **Step**: where an item begins the loop reads it.  `k` stays behind `i`; the tokens around
    the item are no dashes. -/
theorem tokenLoop_item {tokens rest : List Text} {it : Item} {rounds i : Nat} {k : Int}
    (p : Parsed) (hdrop : tokens.drop i = it.tokens ++ rest) (hrounds : it.tokens.length ≤ rounds)
    (hk : k < i) (hprev : 0 < i → tokens[i - 1]? ≠ some ['-']) (hnext : rest[0]? ≠ some ['-']) :
    ∃ (rounds' : Nat) (k' : Int), rounds ≤ rounds' + it.tokens.length ∧
      k' < (i + it.tokens.length : Nat) ∧
      tokenLoop tokens rounds i k p =
        tokenLoop tokens rounds' (i + it.tokens.length) k' (p.append [it.range]) := by
  have hget : ∀ j, tokens[i + j]? = (it.tokens ++ rest)[j]? := by
    intro j
    rw [← hdrop, List.getElem?_drop]
  cases it with
  | single n =>
    have h0 : tokens[i]? = some n.text := hget 0
    have h1 : tokens[i + 1]? ≠ some ['-'] := by
      rw [hget 1]
      exact hnext
    have hback : ¬ (0 < i ∧ tokens[i - 1]? = some ['-']) := fun h => hprev h.1 h.2
    obtain ⟨rounds, rfl⟩ : ∃ m, rounds = m + 1 := Nat.exists_eq_add_of_le' hrounds
    refine ⟨rounds, k, (Nat.le_refl _), ?_, ?_⟩
    · show k < ((i + 1 : Nat) : Int)
      omega
    · rw [tokenLoop, h0]
      simp only [n.dash_not_mem, n.ne_dash, h1, hback, false_and, if_false]
      rw [addPortRange_single]
      rfl
  | joined low high h =>
    have h0 : tokens[i]? = some (low.text ++ '-' :: high.text) := hget 0
    have hne : low.text ++ '-' :: high.text ≠ ['-'] := by
      have hhead := head_tokens_ne_dash [.joined low high h]
      simpa [Item.tokens] using hhead
    obtain ⟨rounds, rfl⟩ : ∃ m, rounds = m + 1 := Nat.exists_eq_add_of_le' hrounds
    refine ⟨rounds, k, (Nat.le_refl _), ?_, ?_⟩
    · show k < ((i + 1 : Nat) : Int)
      omega
    · rw [tokenLoop, h0]
      simp only [hne, List.mem_append, List.mem_cons, true_or, or_true, ne_eq, not_false_eq_true,
        and_self, if_true]
      rw [addCombined_joined p h]
      rfl
  | spaced low high h left right =>
    have h0 : tokens[i]? = some low.text := hget 0
    have h1 : tokens[i + 1]? = some ['-'] := hget 1
    have h2 : tokens[i + 2]? = some high.text := hget 2
    have hlen : i + 2 < tokens.length := (List.getElem?_eq_some_iff.mp h2).1
    have hthree : 3 ≤ rounds := hrounds
    obtain ⟨rounds, rfl⟩ : ∃ m, rounds = m + 2 := Nat.exists_eq_add_of_le' (by omega)
    refine ⟨rounds, ((i + 1 : Nat) : Int) + 1, ?_, ?_, ?_⟩
    · show rounds + 2 ≤ rounds + 3
      omega
    · show ((i + 1 : Nat) : Int) + 1 < ((i + 3 : Nat) : Int)
      omega
    · -- the low port waits for the dash, which then takes both ports
      have hbetween : ¬ (i + 1 = 0 ∨ i + 1 + 1 ≥ tokens.length ∨ ((i + 1 : Nat) : Int) - 1 ≤ k) := by
        omega
      rw [tokenLoop, h0]
      simp only [low.dash_not_mem, low.ne_dash, h1, false_and, if_false, if_true]
      rw [tokenLoop, h1]
      simp only [hbetween, ne_eq, not_true_eq_false, and_false, if_false, if_true]
      rw [Nat.add_sub_cancel, List.getD_eq_getElem?_getD, List.getD_eq_getElem?_getD, h0, h2]
      simp only [Option.getD_some]
      rw [addPortRange_pair p h]
      rfl

/-- **Run**: from a place where an item begins the loop reads all items. -/
theorem tokenLoop_items (tokens : List Text) (items : List Item) :
    ∀ (rounds i : Nat) (k : Int) (p : Parsed), tokens.drop i = items.flatMap Item.tokens →
      (items.flatMap Item.tokens).length ≤ rounds → k < i →
      (0 < i → tokens[i - 1]? ≠ some ['-']) →
      tokenLoop tokens rounds i k p = p.append (items.map Item.range) := by
  induction items with
  | nil =>
    intro rounds i k p hdrop _ _ _
    have hend : tokens[i]? = none := List.getElem?_eq_none (List.drop_eq_nil_iff.mp hdrop)
    have hp : p.append [] = p := by simp [Parsed.append]
    cases rounds with
    | zero => exact hp.symm
    | succ rounds =>
      rw [tokenLoop, hend]
      exact hp.symm
  | cons it items ih =>
    intro rounds i k p hdrop hrounds hk hprev
    rw [List.flatMap_cons] at hdrop hrounds
    rw [List.length_append] at hrounds
    have henough : it.tokens.length ≤ rounds := by omega
    obtain ⟨rounds', k', hleft, hk', hstep⟩ :=
      tokenLoop_item p hdrop henough hk hprev (head_tokens_ne_dash items)
    have hdrop' : tokens.drop (i + it.tokens.length) = items.flatMap Item.tokens := by
      rw [← List.drop_drop, hdrop, List.drop_left]
    have hlast : 0 < i + it.tokens.length →
        tokens[i + it.tokens.length - 1]? ≠ some ['-'] := by
      intro _
      have hpos : 0 < it.tokens.length := by cases it <;> simp [Item.tokens]
      have hindex : i + it.tokens.length - 1 = i + (it.tokens.length - 1) := by omega
      rw [hindex, ← List.getElem?_drop, hdrop, List.getElem?_append_left (by omega),
        ← List.getLast?_eq_getElem?]
      exact getLast_tokens_ne_dash it
    rw [hstep, ih rounds' _ k' _ hdrop' (by omega) hk' hlast]
    simp [Parsed.append]

/-! ## Results -/

/-- **Written lists are read as they were written**, without a warning. -/
theorem parsePorts_written {items : List Item} {t : Text} (h : Written items t) :
    parsePorts t = ⟨items.map Item.range, []⟩ := by
  obtain ⟨groups, _, hflat, hlists⟩ := h.tokenLists_eq
  have hfold : ∀ (groups : List (List Item)) (p : Parsed),
      (groups.map (·.flatMap Item.tokens)).foldl parseTokens p =
        p.append (groups.flatten.map Item.range) := by
    intro groups
    induction groups with
    | nil =>
      intro p
      simp [Parsed.append]
    | cons g groups ih =>
      intro p
      have hseg : parseTokens p (g.flatMap Item.tokens) = p.append (g.map Item.range) :=
        tokenLoop_items _ g _ 0 (-1) p rfl (Nat.le_refl _) (by decide) (fun h => absurd h (by decide))
      rw [List.map_cons, List.foldl_cons, hseg, ih]
      simp [Parsed.append]
  rw [parsePorts, hlists, hfold, hflat]
  rfl

/-- A port in decimal. -/
def Numeral.ofPort (n : UInt16) (h : 1 ≤ n.toNat) : Numeral where
  text := Nat.toDigits 10 n.toNat
  ne_nil := Nat.toDigits_ne_nil
  digits := fun _ hc => Nat.isDigit_of_mem_toDigits (by decide) (by decide) hc
  pos := by rwa [Nat.ofDigitChars_toDigits (by decide) (by decide)]
  lt := by
    rw [Nat.ofDigitChars_toDigits (by decide) (by decide)]
    exact n.toNat_lt

theorem Numeral.value_ofPort (n : UInt16) (h : 1 ≤ n.toNat) : (ofPort n h).value = n.toNat :=
  Nat.ofDigitChars_toDigits (by decide) (by decide)

theorem Numeral.port_ofPort (n : UInt16) (h : 1 ≤ n.toNat) : (ofPort n h).port = n := by
  rw [port, value_ofPort, UInt16.ofNat_toNat]

/-- The text of a range is that of an item. -/
theorem exists_item {r : Range} (h : r.Valid) : ∃ it : Item, it.text = rangeText r ∧ it.range = r := by
  obtain ⟨hlow, hle⟩ := h
  have hhigh : 1 ≤ r.2.toNat := Nat.le_trans hlow hle
  by_cases heq : r.1 = r.2
  · refine ⟨.single (.ofPort r.1 hlow), ?_, ?_⟩
    · rw [rangeText, if_pos heq]
      rfl
    · rw [Item.range, Numeral.port_ofPort]
      exact Prod.ext rfl heq
  · refine ⟨.joined (.ofPort r.1 hlow) (.ofPort r.2 hhigh) ?_, ?_, ?_⟩
    · rw [Numeral.value_ofPort, Numeral.value_ofPort]
      exact hle
    · rw [rangeText, if_neg heq]
      rfl
    · rw [Item.range, Numeral.port_ofPort, Numeral.port_ofPort]

/-- **What the client writes** into the command line is a written list of the ranges. -/
theorem written_getTsshdCommandPort (rs : List Range) (h : ∀ r ∈ rs, r.Valid) :
    ∃ items, Written items (getTsshdCommandPort rs) ∧ items.map Item.range = rs := by
  induction rs with
  | nil => exact ⟨[], .nil, rfl⟩
  | cons r rs ih =>
    obtain ⟨it, htext, hrange⟩ := exists_item (h r List.mem_cons_self)
    obtain ⟨items, hwritten, hitems⟩ := ih fun r' hr' => h r' (List.mem_cons_of_mem _ hr')
    refine ⟨it :: items, ?_, by rw [List.map_cons, hrange, hitems]⟩
    cases rs with
    | nil =>
      obtain rfl : items = [] := List.map_eq_nil_iff.mp hitems
      have hone := Written.item it (t := []) (fun c hc => by simp at hc) .nil
      rw [List.append_nil, htext] at hone
      exact hone
    | cons r' rs =>
      have hends : Ends (',' :: getTsshdCommandPort (r' :: rs)) := by
        intro c hc
        exact .inl (Option.some.inj hc).symm
      have hmore := Written.item it hends (.comma hwritten)
      rw [htext] at hmore
      exact hmore

/-- **The ports of the server.**  Whatever the configuration says, the client finds ranges of
    ports, and the server reads from the command line the ranges the client has found; and both
    read a list of single ports and ranges as it was written. -/
theorem port_ranges_spec :
    (∀ s, ∀ r ∈ (parseTsshdPortRanges s).ranges,
      1 ≤ r.1.toNat ∧ r.1.toNat ≤ r.2.toNat ∧ r.2.toNat ≤ 65535) ∧
    (∀ s, (parsePortRanges (getTsshdCommandPort (parseTsshdPortRanges s).ranges)).ranges =
      (parseTsshdPortRanges s).ranges) ∧
    ∀ items t, Written items t →
      (parseTsshdPortRanges t).ranges = items.map Item.range ∧
      (parsePortRanges t).ranges = items.map Item.range := by
  refine ⟨?_, ?_, ?_⟩
  · intro s r hr
    obtain ⟨hlow, hle⟩ := parsePorts_valid s r hr
    exact ⟨hlow, hle, Nat.le_of_lt_succ r.2.toNat_lt⟩
  · intro s
    obtain ⟨items, hwritten, hitems⟩ := written_getTsshdCommandPort _ (parsePorts_valid s)
    have hread : parsePortRanges (getTsshdCommandPort (parseTsshdPortRanges s).ranges) = _ :=
      parsePorts_written hwritten
    rw [hread]
    exact hitems
  · intro items t hwritten
    have hread := parsePorts_written hwritten
    rw [parseTsshdPortRanges, parsePortRanges, hread]
    exact ⟨rfl, rfl⟩

example : parsePorts "8000 - 8010, 9000 7-7,,080".toList =
    ⟨[(8000, 8010), (9000, 9000), (7, 7), (80, 80)], []⟩ := by decide +kernel

end Ports
