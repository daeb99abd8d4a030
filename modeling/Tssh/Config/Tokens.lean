import Tssh.Framework.Utf8
import Tssh.Sshd.Wildcard

/-! # Tokens of the Configuration

    `expandTokens` in `tssh/tokens.go` replaces the `%` sequences of a configuration value, and
    refuses values that could change the meaning of a command line.  A string without `%` is
    returned as it is.  Otherwise the loop decodes the characters of the string, and writes
    every character outside a sequence again, so that a byte that is **no valid UTF-8** comes out as
    the three bytes of U+FFFD.

    * **Model**: `expandTokens` with all its errors.
    * **Specification**: `cut` finds the `%` sequences in the bytes; `expansion` keeps the
      other bytes and replaces the sequences, unless one of them is refused.
    * `expandTokens_iff`: the function does that exactly if the string has no `%`, or is valid
      UTF-8, or a sequence is refused.
-/

open Go Utf8

namespace Tokens

/-! ## Validity checks -/

def isHostValid (host : Bytes) : Bool :=
  host.head? ≠ some 0x2D &&
  (runes host).all fun r =>
    r.value ∉ "'`\"$\\;&<>|()\x7b\x7d".toList &&
    !(Sshd.isSpace r.value || isControl r.value)
where
  /-- `unicode.IsControl`. -/
  isControl (c : Char) : Bool := c.toNat < 0x20 || (0x7F ≤ c.toNat && c.toNat ≤ 0x9F)

/-- Whether the expression `\s-` matches a part of the text. -/
def spaceDash : Bytes → Bool
  | [] => false
  | [_] => false
  | a :: b :: bs => (a ∈ [0x09, 0x0A, 0x0C, 0x0D, 0x20] && b = 0x2D) || spaceDash (b :: bs)

def isUserValid (user : Bytes) : Bool :=
  user.head? ≠ some 0x2D &&
  (runes user).all (fun r => r.value ∉ "'`\";&<>|()\x7b\x7d".toList) &&
  !spaceDash user &&
  user.getLast? ≠ some 0x5C

def isPortValid (port : Bytes) : Bool := (runes port).all fun r => '0' ≤ r.value && r.value ≤ '9'

/-! ## The code -/

/-- What the function reads of its parameters and of the system. -/
structure Param where
  host : Bytes
  port : Bytes
  user : Bytes
  /-- `param.args.Destination`. -/
  destination : Bytes
  proxies : List Bytes
  /-- `getOptionConfig(param.args, "HostKeyAlias")`. -/
  hostKeyAlias : Bytes
  /-- `getHostname()`. -/
  hostname : Bytes

inductive TokenError where
  /-- `token [%%%c] in [%s] is not supported`. -/
  | notAllowed (c : Char) (str : Bytes)
  /-- `token [%%%c] in [%s] is not supported yet`. -/
  | notSupported (c : Char) (str : Bytes)
  /-- `host [%s] contains invalid characters`. -/
  | host (host : Bytes)
  /-- `port [%s] contains invalid characters`. -/
  | port (port : Bytes)
  /-- `user [%s] contains invalid characters`. -/
  | user (user : Bytes)
  /-- `destination [%s] contains invalid characters`. -/
  | destination (destination : Bytes)
  /-- `proxy [%s] contains invalid characters`. -/
  | proxy (proxy : Bytes)
  /-- `HostKeyAlias [%s] contains invalid characters`. -/
  | hostKeyAlias (name : Bytes)
  /-- `[%s] ends with %% is invalid`. -/
  | endsInside (str : Bytes)
  deriving DecidableEq, Repr

/-- The tokens that the `switch` knows. -/
inductive Token where
  | percent | host | port | user | destination | hostname | shortHostname | proxy | hash
  | hostKeyAlias
  deriving DecidableEq, Repr

/-- The cases of the `switch`. -/
def Token.ofChar : Char → Option Token
  | '%' => some percent
  | 'h' => some host
  | 'p' => some port
  | 'r' => some user
  | 'n' => some destination
  | 'l' => some hostname
  | 'L' => some shortHostname
  | 'j' => some proxy
  | 'C' => some hash
  | 'k' => some hostKeyAlias
  | _ => none

/-- `strings.ContainsRune`. -/
def containsRune (s : Bytes) (c : Char) : Bool := (runes s).any fun r => r.value = c

/-- A value that is written only if it passes its check. -/
def checked (valid : Bool) (value : Bytes) (e : TokenError) : Except TokenError Bytes :=
  if valid then .ok value else .error e

section Code

variable (sha1Hex : Bytes → Bytes) (param : Param) (tokens : Bytes)

/-- The text that `%C` hashes. -/
def hashStr : Bytes :=
  let hashStr := param.hostname ++ param.host ++ param.port ++ param.user
  match param.proxies.getLast? with
  | some proxy => if containsRune tokens 'j' then hashStr ++ proxy else hashStr
  | none => hashStr

/-- The bodies of the `switch`; `sha1Hex` is the hexadecimal text of the SHA-1 sum. -/
def write : Token → Except TokenError Bytes
  | .percent => .ok [0x25]
  | .host => checked (isHostValid param.host) param.host (.host param.host)
  | .port => checked (isPortValid param.port) param.port (.port param.port)
  | .user => checked (isUserValid param.user) param.user (.user param.user)
  | .destination =>
    checked (isHostValid param.destination) param.destination (.destination param.destination)
  | .hostname => .ok param.hostname
  | .shortHostname => .ok (param.hostname.takeWhile (· ≠ 0x2E))
  | .proxy =>
    match param.proxies.getLast? with
    | some proxy => checked (isHostValid proxy) proxy (.proxy proxy)
    | none => .ok []
  | .hash => .ok (sha1Hex (hashStr param tokens))
  | .hostKeyAlias =>
    if param.hostKeyAlias ≠ [] then
      checked (isHostValid param.hostKeyAlias) param.hostKeyAlias (.hostKeyAlias param.hostKeyAlias)
    else
      checked (isHostValid param.destination) param.destination (.destination param.destination)

/-- The loop over the characters; `inside` is `state == '%'` and `buf` the builder. -/
def expandLoop (str : Bytes) : Bool → Bytes → List Rune → Except TokenError Bytes
  | false, buf, [] => .ok buf
  | true, _, [] => .error (.endsInside str)
  | false, buf, r :: rs =>
    if r.value = '%' then expandLoop str true buf rs
    else expandLoop str false (buf ++ encode r.value) rs
  | true, buf, r :: rs =>
    if containsRune tokens r.value then
      match Token.ofChar r.value with
      | none => .error (.notSupported r.value str)
      | some token =>
        match write sha1Hex param tokens token with
        | .error e => .error e
        | .ok value => expandLoop str false (buf ++ value) rs
    else .error (.notAllowed r.value str)

def expandTokens (str : Bytes) : Except TokenError Bytes :=
  if containsRune str '%' then expandLoop sha1Hex param tokens str false [] (runes str)
  else .ok str

end Code

/-! ## Specification -/

/-- The parts of a string: a byte outside of sequences, a sequence with the byte after its `%`,
    or a `%` at the end. -/
inductive Piece where
  | byte (b : UInt8)
  | sequence (t : UInt8)
  | dangling
  deriving DecidableEq, Repr

/-- Cuts a string at its sequences, inside of one or not. -/
def cutFrom : Bool → Bytes → List Piece
  | false, [] => []
  | true, [] => [.dangling]
  | false, b :: bs => if b = 0x25 then cutFrom true bs else .byte b :: cutFrom false bs
  | true, t :: bs => .sequence t :: cutFrom false bs

def cut (str : Bytes) : List Piece := cutFrom false str

def Token.all : List Token :=
  [percent, host, port, user, destination, hostname, shortHostname, proxy, hash, hostKeyAlias]

def Token.letter : Token → UInt8
  | percent => 0x25
  | host => 0x68
  | port => 0x70
  | user => 0x72
  | destination => 0x6E
  | hostname => 0x6C
  | shortHostname => 0x4C
  | proxy => 0x6A
  | hash => 0x43
  | hostKeyAlias => 0x6B

def Token.ofLetter (t : UInt8) : Option Token := Token.all.find? fun token => token.letter = t

section Specification

variable (sha1Hex : Bytes → Bytes) (param : Param) (tokens : Bytes)

/-- What a token stands for. -/
def Token.value : Token → Bytes
  | percent => [0x25]
  | host => param.host
  | port => param.port
  | user => param.user
  | destination => param.destination
  | hostname => param.hostname
  | shortHostname => param.hostname.takeWhile (· ≠ 0x2E)
  | proxy => param.proxies.getLast?.getD []
  | hash => sha1Hex (param.hostname ++ param.host ++ param.port ++ param.user ++
      if 0x6A ∈ tokens then param.proxies.getLast?.getD [] else [])
  | hostKeyAlias => if param.hostKeyAlias = [] then param.destination else param.hostKeyAlias

/-- Whether the value that a token inserts passes its check, where it has one. -/
def Token.passes (token : Token) : Bool :=
  match token with
  | host => isHostValid param.host
  | port => isPortValid param.port
  | user => isUserValid param.user
  | destination => isHostValid param.destination
  | proxy => param.proxies.getLast?.all isHostValid
  | hostKeyAlias =>
    isHostValid (if param.hostKeyAlias = [] then param.destination else param.hostKeyAlias)
  | _ => true

/-- A sequence is refused if it is not allowed or not supported, or if its value does not pass
    its check; so is a `%` at the end. -/
def Piece.refused : Piece → Bool
  | byte _ => false
  | sequence t => !(t ∈ tokens && (Token.ofLetter t).any (Token.passes param))
  | dangling => true

def Piece.value : Piece → Bytes
  | byte b => [b]
  | sequence t => ((Token.ofLetter t).map (Token.value sha1Hex param tokens)).getD []
  | dangling => []

/-- Some part of the string is refused. -/
def Refused (str : Bytes) : Prop := ∃ p ∈ cut str, p.refused param tokens = true

instance (str : Bytes) : Decidable (Refused param tokens str) :=
  List.decidableBEx (fun p : Piece => p.refused param tokens = true) (cut str)

/-- The string with its sequences replaced. -/
def expansion (str : Bytes) : Bytes := (cut str).flatMap (Piece.value sha1Hex param tokens)

end Specification

/-! ## Letters and characters -/

theorem containsRune_ascii (s : Bytes) {b : UInt8} (hb : b.toNat < 128) :
    containsRune s (Char.ofNat b.toNat) = decide (b ∈ s) := by
  rw [Bool.eq_iff_iff, containsRune, List.any_eq_true, decide_eq_true_iff, ← exists_value_iff hb]
  simp

theorem Token.ofChar_ascii {b : UInt8} (hb : b.toNat < 128) :
    ofChar (Char.ofNat b.toNat) = ofLetter b := by
  have hall : ∀ n < 128, ofChar (Char.ofNat n) = ofLetter (UInt8.ofNat n) := by decide +kernel
  rw [hall b.toNat hb, UInt8.ofNat_toNat]

/-- All tokens are ASCII. -/
theorem Token.ofChar_eq_none {c : Char} (h : 128 ≤ c.toNat) : ofChar c = none := by
  unfold ofChar
  split <;> first | rfl | exact absurd h (by decide)

theorem Token.ofLetter_eq_none {t : UInt8} (h : 128 ≤ t.toNat) : ofLetter t = none := by
  rw [ofLetter, List.find?_eq_none]
  intro token _ heq
  rw [decide_eq_true_eq] at heq
  subst heq
  cases token <;> exact absurd h (by decide)

section Correctness

variable {sha1Hex : Bytes → Bytes} {param : Param} {tokens : Bytes}

theorem hashStr_eq :
    hashStr param tokens = param.hostname ++ param.host ++ param.port ++ param.user ++
      if 0x6A ∈ tokens then param.proxies.getLast?.getD [] else [] := by
  have hj : containsRune tokens 'j' = decide (0x6A ∈ tokens) :=
    containsRune_ascii tokens (b := 0x6A) (by decide)
  unfold hashStr
  rw [hj]
  cases param.proxies.getLast? with
  | none => simp
  | some proxy => by_cases h : 0x6A ∈ tokens <;> simp [h]

variable (sha1Hex param tokens) in
/-- A token writes its value, or its check fails. -/
theorem write_cases (token : Token) :
    (token.passes param = true ∧
      write sha1Hex param tokens token = .ok (token.value sha1Hex param tokens)) ∨
    (token.passes param = false ∧ ∃ e, write sha1Hex param tokens token = .error e) := by
  have hchecked : ∀ (valid : Bool) (value : Bytes) (e : TokenError),
      (valid = true ∧ checked valid value e = .ok value) ∨
      (valid = false ∧ ∃ e', checked valid value e = .error e') := by
    intro valid value e
    cases valid with
    | true => exact .inl ⟨rfl, rfl⟩
    | false => exact .inr ⟨rfl, e, rfl⟩
  cases token with
  | percent => exact .inl ⟨rfl, rfl⟩
  | host => exact hchecked _ _ _
  | port => exact hchecked _ _ _
  | user => exact hchecked _ _ _
  | destination => exact hchecked _ _ _
  | hostname => exact .inl ⟨rfl, rfl⟩
  | shortHostname => exact .inl ⟨rfl, rfl⟩
  | proxy =>
    simp only [write, Token.passes, Token.value]
    cases param.proxies.getLast? with
    | none => exact .inl ⟨rfl, rfl⟩
    | some proxy => exact hchecked _ _ _
  | hash =>
    left
    refine ⟨rfl, ?_⟩
    rw [write, Token.value, hashStr_eq]
  | hostKeyAlias =>
    by_cases h : param.hostKeyAlias = []
    · simpa [write, Token.passes, Token.value, h] using hchecked _ _ _
    · simpa [write, Token.passes, Token.value, h] using hchecked _ _ _

/-! ## What the loop gives -/

/-- The result agrees with the parts of the rest of the string: it is an error if one of them is
    refused, and otherwise their values, with two more bytes for each of the `invalid`
    bytes. -/
structure Agrees (sha1Hex : Bytes → Bytes) (param : Param) (tokens : Bytes) (pieces : List Piece)
    (invalid : Nat) (buf : Bytes) (result : Except TokenError Bytes) : Prop where
  refused : (∃ p ∈ pieces, p.refused param tokens = true) → ∃ e, result = .error e
  expanded : (∀ p ∈ pieces, p.refused param tokens = false) → ∃ out, result = .ok (buf ++ out) ∧
    out.length = (pieces.flatMap (Piece.value sha1Hex param tokens)).length + 2 * invalid ∧
    (invalid = 0 → out = pieces.flatMap (Piece.value sha1Hex param tokens))

variable {n : Nat} {bs buf : Bytes}

theorem Agrees.of_refused {p : Piece} {pieces : List Piece} {e : TokenError}
    (hp : p.refused param tokens = true) :
    Agrees sha1Hex param tokens (p :: pieces) n buf (.error e) where
  refused _ := ⟨e, rfl⟩
  expanded h := by
    rw [h p List.mem_cons_self] at hp
    cases hp

/-- What was written for the first parts goes in front. -/
theorem Agrees.append (first : List Piece) {pieces : List Piece} {n k : Nat}
    {buf written : Bytes} {result : Except TokenError Bytes}
    (hfirst : ∀ p ∈ first, p.refused param tokens = false)
    (hlen : written.length = (first.flatMap (Piece.value sha1Hex param tokens)).length + 2 * k)
    (hvalue : k = 0 → written = first.flatMap (Piece.value sha1Hex param tokens))
    (h : Agrees sha1Hex param tokens pieces n (buf ++ written) result) :
    Agrees sha1Hex param tokens (first ++ pieces) (n + k) buf result where
  refused := by
    rintro ⟨p, hp, hrefused⟩
    rcases List.mem_append.mp hp with hmem | hmem
    · rw [hfirst p hmem] at hrefused
      cases hrefused
    · exact h.refused ⟨p, hmem, hrefused⟩
  expanded hall := by
    obtain ⟨out, hout, hlength, hexact⟩ :=
      h.expanded fun p hp => hall p (List.mem_append_right first hp)
    refine ⟨written ++ out, by rw [hout, List.append_assoc], ?_, ?_⟩
    · rw [List.flatMap_append, List.length_append, List.length_append]
      omega
    · intro hzero
      rw [List.flatMap_append, hvalue (by omega), hexact (by omega)]

theorem cutFrom_bytes {w : Bytes} (hw : 0x25 ∉ w) (bs : Bytes) :
    cutFrom false (w ++ bs) = w.map .byte ++ cutFrom false bs := by
  induction w with
  | nil => rfl
  | cons b w ih =>
    rw [List.mem_cons, not_or] at hw
    rw [List.cons_append, cutFrom, if_neg (Ne.symm hw.1), ih hw.2]
    rfl

theorem flatMap_value_bytes (w : Bytes) :
    (w.map Piece.byte).flatMap (Piece.value sha1Hex param tokens) = w := by
  induction w with
  | nil => rfl
  | cons b w ih => rw [List.map_cons, List.flatMap_cons, ih]; rfl

/-- Bytes that are written again as they are. -/
theorem Agrees.bytes {w bs buf : Bytes} {result : Except TokenError Bytes} (hw : 0x25 ∉ w)
    (h : Agrees sha1Hex param tokens (cutFrom false bs) n (buf ++ w) result) :
    Agrees sha1Hex param tokens (cutFrom false (w ++ bs)) n buf result := by
  rw [cutFrom_bytes hw]
  refine Agrees.append (w.map .byte) (k := 0) ?_ ?_ ?_ h
  · intro p hp
    obtain ⟨b, -, rfl⟩ := List.mem_map.mp hp
    rfl
  · rw [flatMap_value_bytes]
    rfl
  · intro _
    rw [flatMap_value_bytes]

/-! ## The loop -/

/-- The number of bytes of a string that are no valid UTF-8. -/
def invalidCount (bs : Bytes) : Nat := (runes bs).countP fun r => !r.isValid

theorem invalidCount_eq_zero : invalidCount bs = 0 ↔ Valid bs := by
  simp [invalidCount, Valid, List.countP_eq_zero]

theorem invalidCount_encode (c : Char) (bs : Bytes) :
    invalidCount (encode c ++ bs) = invalidCount bs := by
  rw [invalidCount, runes_encode_append, List.countP_cons_of_neg (by simp [Rune.isValid])]
  rfl

theorem invalidCount_invalid {b : UInt8} (h : decodeRune (b :: bs) = none) :
    invalidCount (b :: bs) = invalidCount bs + 1 := by
  rw [invalidCount, runes_invalid h, List.countP_cons_of_pos (by simp [Rune.isValid])]
  rfl

theorem refused_not_ascii {t : UInt8} (h : 128 ≤ t.toNat) :
    (Piece.sequence t).refused param tokens = true := by
  simp [Piece.refused, Token.ofLetter_eq_none h]

/-- Inside a sequence a character outside ASCII is an error. -/
theorem Agrees.not_ascii (str : Bytes) {t : UInt8} {r : Rune} {rs : List Rune} (ht : 128 ≤ t.toNat)
    (hr : 128 ≤ r.value.toNat) :
    Agrees sha1Hex param tokens (cutFrom true (t :: bs)) n buf
      (expandLoop sha1Hex param tokens str true buf (r :: rs)) := by
  rw [expandLoop, Token.ofChar_eq_none hr]
  split
  · exact .of_refused (refused_not_ascii ht)
  · exact .of_refused (refused_not_ascii ht)

/-- Inside a sequence a letter is refused, or its value is written. -/
theorem Agrees.letter (str : Bytes) {t : UInt8} (ht : t.toNat < 128) {rs : List Rune}
    (h : ∀ buf, Agrees sha1Hex param tokens (cutFrom false bs) n buf
      (expandLoop sha1Hex param tokens str false buf rs)) :
    Agrees sha1Hex param tokens (cutFrom true (t :: bs)) n buf
      (expandLoop sha1Hex param tokens str true buf (.valid (Char.ofNat t.toNat) :: rs)) := by
  rw [cutFrom, expandLoop]
  simp only [Rune.value, containsRune_ascii tokens ht, Token.ofChar_ascii ht, decide_eq_true_eq]
  by_cases hallowed : t ∈ tokens
  · rw [if_pos hallowed]
    cases htoken : Token.ofLetter t with
    | none => exact .of_refused (by simp [Piece.refused, htoken])
    | some token =>
      rcases write_cases sha1Hex param tokens token with
        ⟨hpasses, hwrite⟩ | ⟨hpasses, e, hwrite⟩
      · simp only [hwrite]
        refine Agrees.append [.sequence t] (k := 0) ?_ ?_ ?_ (h _)
        · simp [Piece.refused, hallowed, htoken, hpasses]
        · simp [Piece.value, htoken]
        · simp [Piece.value, htoken]
      · simp only [hwrite]
        exact .of_refused (by simp [Piece.refused, htoken, hpasses])
  · rw [if_neg hallowed]
    exact .of_refused (by simp [Piece.refused, hallowed])

variable (sha1Hex param tokens) in
/-- **Run lemma.**  By induction along the characters of the rest of the string, inside of a
    sequence and outside. -/
theorem expandLoop_agrees (str bs : Bytes) (inside : Bool) (buf : Bytes) :
    Agrees sha1Hex param tokens (cutFrom inside bs) (invalidCount bs) buf
      (expandLoop sha1Hex param tokens str inside buf (runes bs)) := by
  induction bs using runes_induction generalizing inside buf with
  | hnil =>
    cases inside with
    | false => exact ⟨by simp [cutFrom], fun _ => ⟨[], by simp [expandLoop], rfl, fun _ => rfl⟩⟩
    | true => exact .of_refused rfl
  | hvalid c bs ih =>
    rw [runes_encode_append, invalidCount_encode]
    cases inside with
    | false =>
      rw [expandLoop]
      by_cases hpercent : c = '%'
      · subst hpercent
        exact ih true buf
      · have hvalue : ¬ (Rune.valid c).value = '%' := hpercent
        rw [if_neg hvalue]
        apply Agrees.bytes _ (ih false _)
        -- a byte of another character is never the byte of `%`
        intro hmem
        exact hpercent (eq_ofNat_of_mem_encode hmem (by decide))
    | true =>
      by_cases hascii : c.toNat < 128
      · have ht : c.toNat.toUInt8.toNat = c.toNat := by
          simp only [Nat.toUInt8, UInt8.toNat_ofNat']
          omega
        have hchar : Rune.valid c = .valid (Char.ofNat c.toNat.toUInt8.toNat) := by
          rw [ht, Char.ofNat_toNat]
        rw [encode_ascii hascii, hchar]
        exact Agrees.letter str (by omega) (ih false)
      · obtain ⟨t, rest, hcons⟩ := List.exists_cons_of_ne_nil (encode_ne_nil c)
        have ht : 128 ≤ t.toNat := by
          by_contra hlt
          have hmem : t ∈ encode c := by
            rw [hcons]
            exact List.mem_cons_self
          rw [eq_ofNat_of_mem_encode hmem (by omega), toNat_ofNat_ascii (by omega)] at hascii
          omega
        rw [hcons]
        exact Agrees.not_ascii str ht (Nat.le_of_not_lt hascii)
  | hinvalid b bs hdecode ih =>
    have hb := not_ascii_of_invalid hdecode
    rw [runes_invalid hdecode, invalidCount_invalid hdecode]
    cases inside with
    | false =>
      have hne : b ≠ 0x25 := by
        rintro rfl
        exact absurd hb (by decide)
      rw [cutFrom, if_neg hne]
      -- the byte is replaced by the three bytes of U+FFFD
      exact Agrees.append [.byte b] (k := 1) (by simp [Piece.refused]) rfl
        (fun h => absurd h (by decide)) (ih false _)
    | true => exact Agrees.not_ascii str hb (show 128 ≤ '�'.toNat by decide)

/-! ## The function -/

/-- Without `%` all parts are bytes, and none is refused. -/
theorem cut_of_not_mem {str : Bytes} (h : 0x25 ∉ str) : cut str = str.map .byte := by
  have hcut := cutFrom_bytes h []
  rwa [List.append_nil, cutFrom, List.append_nil] at hcut

theorem not_refused_of_not_mem {str : Bytes} (h : 0x25 ∉ str) : ¬ Refused param tokens str := by
  rintro ⟨p, hp, hrefused⟩
  rw [cut_of_not_mem h] at hp
  obtain ⟨b, -, rfl⟩ := List.mem_map.mp hp
  cases hrefused

theorem not_refused_iff {str : Bytes} :
    ¬ Refused param tokens str ↔ ∀ p ∈ cut str, p.refused param tokens = false := by
  simp [Refused]

variable (sha1Hex param tokens) in
/-- **Expansion.**  The function replaces the sequences and keeps all other bytes, and fails exactly
    if a sequence is refused: for the strings that have no `%`, or are valid UTF-8, or have a
    sequence that is refused, and for no others. -/
theorem expandTokens_iff (str : Bytes) :
    ((Refused param tokens str → ∃ e, expandTokens sha1Hex param tokens str = .error e) ∧
      (¬ Refused param tokens str →
        expandTokens sha1Hex param tokens str = .ok (expansion sha1Hex param tokens str))) ↔
    (0x25 ∈ str → Valid str ∨ Refused param tokens str) := by
  have hcontains : containsRune str '%' = decide (0x25 ∈ str) :=
    containsRune_ascii str (b := 0x25) (by decide)
  unfold expandTokens
  rw [hcontains]
  by_cases hpercent : 0x25 ∈ str
  · simp only [hpercent, decide_true, if_true, forall_const]
    have hloop : Agrees sha1Hex param tokens (cut str) (invalidCount str) []
        (expandLoop sha1Hex param tokens str false [] (runes str)) :=
      expandLoop_agrees sha1Hex param tokens str str false []
    constructor
    · rintro ⟨-, hok⟩
      by_cases hrefused : Refused param tokens str
      · exact .inr hrefused
      · left
        obtain ⟨out, hout, hlen, -⟩ := hloop.expanded (not_refused_iff.mp hrefused)
        -- the result is as long as the expansion, so no byte was replaced
        have heq : out = expansion sha1Hex param tokens str := by
          rw [hok hrefused] at hout
          exact (Except.ok.inj hout).symm
        have hsame : (expansion sha1Hex param tokens str).length =
            (expansion sha1Hex param tokens str).length + 2 * invalidCount str := by
          rw [heq] at hlen
          exact hlen
        exact invalidCount_eq_zero.mp (by omega)
    · intro h
      refine ⟨hloop.refused, fun hrefused => ?_⟩
      have hvalid := h.resolve_right hrefused
      obtain ⟨out, hout, -, hexact⟩ := hloop.expanded (not_refused_iff.mp hrefused)
      rw [hout, hexact (invalidCount_eq_zero.mpr hvalid)]
      rfl
  · simp only [hpercent, decide_false, Bool.false_eq_true, if_false, false_implies, iff_true]
    refine ⟨fun hrefused => absurd hrefused (not_refused_of_not_mem hpercent), fun _ => ?_⟩
    rw [expansion, cut_of_not_mem hpercent, flatMap_value_bytes]

end Correctness

/-- A user and a host to expand. -/
def penny : Param where
  host := [0x68, 0x31]
  port := [0x32, 0x32]
  user := [0x70]
  destination := [0x68, 0x31]
  proxies := []
  hostKeyAlias := []
  hostname := [0x6D, 0x65]

/-- The byte `e9` (a Latin-1 file name) in front of `%r` comes out as U+FFFD, although nothing is
    refused; without a `%` it is kept. -/
theorem invalid_byte_replaced :
    expandTokens id penny [0x25, 0x72] [0xE9, 0x25, 0x72] = .ok [0xEF, 0xBF, 0xBD, 0x70] ∧
    ¬ Refused penny [0x25, 0x72] [0xE9, 0x25, 0x72] ∧
    expansion id penny [0x25, 0x72] [0xE9, 0x25, 0x72] = [0xE9, 0x70] ∧
    expandTokens id penny [0x25, 0x72] [0xE9] = .ok [0xE9] := by
  decide +kernel

theorem valid_text_expanded :
    expandTokens id penny [0x25, 0x72] [0xC3, 0xA9, 0x25, 0x72] = .ok [0xC3, 0xA9, 0x70] :=
  ((expandTokens_iff id penny [0x25, 0x72] [0xC3, 0xA9, 0x25, 0x72]).mpr
    (fun _ => .inl (by decide +kernel))).2 (by decide +kernel)

end Tokens
