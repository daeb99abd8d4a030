import Tssh.Framework.Slice

/-! # UTF-8

    Go's strings are bytes, and a `range` loop decodes them: a valid encoding is one round, and
    so is every single byte at which there is none; such a round sees U+FFFD.  `runes` are the
    rounds of that loop.  Encoding and decoding of a character are those of the core library.

    * `runes_induction`: induction along the rounds.
    * `runes_append_of_start`: UTF-8 is self-synchronizing; in front of a byte that can start
      a character the text can be cut.
    * `runes_append`: in general it can be cut where no character is cut (`Splits`).
-/

open Go

namespace Utf8

/-! ## Characters -/

/-- `utf8.EncodeRune`. -/
def encode (c : Char) : Bytes := String.utf8EncodeChar c

/-- `utf8.DecodeRune`; `none` is `RuneError` with width one, or no byte at all. -/
def decodeRune (bs : Bytes) : Option Char := bs.toByteArray.utf8DecodeChar? 0

@[simp] theorem length_encode (c : Char) : (encode c).length = c.utf8Size :=
  String.length_utf8EncodeChar c

theorem encode_ne_nil (c : Char) : encode c ≠ [] := by
  intro h
  have hlen := length_encode c
  have hpos := c.utf8Size_pos
  rw [h] at hlen
  simp only [List.length_nil] at hlen
  omega

@[simp] theorem decodeRune_encode (c : Char) (rest : Bytes) :
    decodeRune (encode c ++ rest) = some c := by
  rw [decodeRune, List.toByteArray_append]
  exact ByteArray.utf8DecodeChar?_utf8EncodeChar_append

variable {a bs y : Bytes} {c : Char} {b : UInt8}

theorem decodeRune_eq_some : decodeRune bs = some c ↔ ∃ rest, bs = encode c ++ rest := by
  constructor
  · intro h
    obtain ⟨rest, hrest⟩ := ByteArray.exists_of_utf8DecodeChar?_eq_some h
    refine ⟨rest.data.toList, ?_⟩
    have hlist := congrArg (fun b : ByteArray => b.data.toList) hrest
    simpa [encode] using hlist
  · rintro ⟨rest, rfl⟩
    exact decodeRune_encode c rest

/-- No encoding starts with another one. -/
theorem encode_append_inj {c d : Char} {x y : Bytes} (h : encode c ++ x = encode d ++ y) :
    c = d ∧ x = y := by
  have hcd : c = d := by
    have hc := decodeRune_encode c x
    rw [h, decodeRune_encode] at hc
    exact (Option.some.inj hc).symm
  subst hcd
  exact ⟨rfl, List.append_cancel_left h⟩

/-- The byte can start a character: it is not a continuation byte, and not one of the bytes
    that never occur. -/
abbrev IsStart (b : UInt8) : Prop := b.IsUTF8FirstByte

theorem isStart_encode {rest : Bytes} (h : encode c = b :: rest) :
    IsStart b ∧ ∀ x ∈ rest, ¬ IsStart x := by
  have hstart : ∀ (i : Nat) (hi : i < (encode c).length), IsStart (encode c)[i] ↔ i = 0 :=
    fun i hi => UInt8.isUTF8FirstByte_getElem_utf8EncodeChar
  constructor
  · have hzero := (hstart 0 (by simp [h])).mpr rfl
    simpa [h] using hzero
  · intro x hx hs
    obtain ⟨i, hi, rfl⟩ := List.getElem_of_mem hx
    have hnext := hstart (i + 1) (by simp [h, hi])
    simp only [h, List.getElem_cons_succ] at hnext
    exact absurd (hnext.mp hs) (Nat.succ_ne_zero i)

theorem isStart_of_decodeRune (h : decodeRune (b :: bs) = some c) : IsStart b := by
  obtain ⟨rest, hrest⟩ := decodeRune_eq_some.mp h
  obtain ⟨x, xs, hx⟩ := List.exists_cons_of_ne_nil (encode_ne_nil c)
  rw [hx, List.cons_append] at hrest
  rw [(List.cons.inj hrest).1]
  exact (isStart_encode hx).1

/-! ## The rounds of a `range` loop -/

/-- A round of the loop: a character, or a byte at which there is none. -/
inductive Rune where
  | valid (c : Char)
  | invalid (b : UInt8)
  deriving DecidableEq, Repr

/-- The value of the loop variable. -/
def Rune.value : Rune → Char
  | valid c => c
  | invalid _ => '�'

/-- The rounds after `skip` more bytes of the character just decoded. -/
def runesFrom : Nat → Bytes → List Rune
  | _, [] => []
  | skip + 1, _ :: bs => runesFrom skip bs
  | 0, b :: bs =>
    match decodeRune (b :: bs) with
    | some c => .valid c :: runesFrom (c.utf8Size - 1) bs
    | none => .invalid b :: runesFrom 0 bs

/-- `for _, c := range str`. -/
def runes (str : Bytes) : List Rune := runesFrom 0 str

@[simp] theorem runes_nil : runes [] = [] := rfl

theorem runesFrom_append (skipped bs : Bytes) : runesFrom skipped.length (skipped ++ bs) = runes bs := by
  induction skipped with
  | nil => rfl
  | cons b skipped ih => simpa [runesFrom] using ih

@[simp] theorem runes_encode_append (c : Char) (bs : Bytes) :
    runes (encode c ++ bs) = .valid c :: runes bs := by
  obtain ⟨b, rest, hcons⟩ := List.exists_cons_of_ne_nil (encode_ne_nil c)
  have hdecode := decodeRune_encode c bs
  have hlen := length_encode c
  rw [hcons, List.cons_append] at *
  have hskip : c.utf8Size - 1 = rest.length := by
    rw [List.length_cons] at hlen
    omega
  rw [runes, runesFrom, hdecode]
  simp only [hskip, runesFrom_append]

theorem runes_invalid (h : decodeRune (b :: bs) = none) :
    runes (b :: bs) = .invalid b :: runes bs := by
  rw [runes, runesFrom, h]
  rfl

/-- **Induction along the rounds.** -/
theorem runes_induction {motive : Bytes → Prop} (hnil : motive [])
    (hvalid : ∀ c bs, motive bs → motive (encode c ++ bs))
    (hinvalid : ∀ b bs, decodeRune (b :: bs) = none → motive bs → motive (b :: bs))
    (bs : Bytes) : motive bs := by
  -- on the number of bytes: a round passes over at least one
  induction hn : bs.length using Nat.strongRecOn generalizing bs with
  | ind n ih =>
    cases bs with
    | nil => exact hnil
    | cons b bs =>
      cases hdecode : decodeRune (b :: bs) with
      | none => exact hinvalid b bs hdecode (ih bs.length (by simp at hn; omega) bs rfl)
      | some c =>
        obtain ⟨rest, hrest⟩ := decodeRune_eq_some.mp hdecode
        have hpos := c.utf8Size_pos
        rw [hrest] at hn ⊢
        rw [List.length_append, length_encode] at hn
        exact hvalid c rest (ih rest.length (by omega) rest rfl)

/-! ## Cutting a text -/

/-- The end of `a` and the beginning of `bs` are two parts of one character. -/
def Splits (a bs : Bytes) : Prop :=
  ∃ c x y, encode c = x ++ y ∧ x ≠ [] ∧ y ≠ [] ∧ x <:+ a ∧ y <+: bs

theorem Splits.of_suffix {a a' bs : Bytes} (h : Splits a bs) (hsuffix : a <:+ a') :
    Splits a' bs := by
  obtain ⟨c, x, y, hc, hx, hy, hxa, hyb⟩ := h
  exact ⟨c, x, y, hc, hx, hy, hxa.trans hsuffix, hyb⟩

/-- A character that is there only with the bytes that follow is cut by the end of `a`. -/
theorem splits_of_decodeRune (hne : a ≠ []) (ha : decodeRune a = none)
    (h : decodeRune (a ++ bs) = some c) : Splits a bs := by
  obtain ⟨rest, hrest⟩ := decodeRune_eq_some.mp h
  rcases List.append_eq_append_iff.mp hrest with ⟨y, hy, hbs⟩ | ⟨y, hy, -⟩
  · refine ⟨c, a, y, hy, hne, ?_, List.suffix_refl a, ?_⟩
    · rintro rfl
      rw [List.append_nil] at hy
      rw [← hy, ← List.append_nil (encode c), decodeRune_encode] at ha
      cases ha
    · rw [hbs]
      exact List.prefix_append y rest
  · rw [hy, decodeRune_encode] at ha
    cases ha

/-- A text can be cut where no character is cut. -/
theorem runes_append (h : ¬ Splits a bs) : runes (a ++ bs) = runes a ++ runes bs := by
  induction a using runes_induction with
  | hnil => rfl
  | hvalid c a ih =>
    rw [List.append_assoc, runes_encode_append, runes_encode_append, List.cons_append,
      ih fun hsplits => h (hsplits.of_suffix (List.suffix_append _ _))]
  | hinvalid b a hdecode ih =>
    have hwhole : decodeRune (b :: (a ++ bs)) = none := by
      cases hsome : decodeRune (b :: (a ++ bs)) with
      | none => rfl
      | some c => exact absurd (splits_of_decodeRune (by simp) hdecode hsome) h
    rw [List.cons_append, runes_invalid hwhole, runes_invalid hdecode, List.cons_append,
      ih fun hsplits => h (hsplits.of_suffix (List.suffix_cons b a))]

/-- The bytes of a character after its first one cannot start a character. -/
theorem not_isStart_of_encode {x y : Bytes} (hc : encode c = x ++ y) (hx : x ≠ []) :
    ∀ b ∈ y, ¬ IsStart b := by
  obtain ⟨b, x, rfl⟩ := List.exists_cons_of_ne_nil hx
  intro d hd
  exact (isStart_encode hc).2 d (List.mem_append_right x hd)

theorem not_splits_of_start (h : ∀ b ∈ bs.head?, IsStart b) : ¬ Splits a bs := by
  rintro ⟨c, x, y, hc, hx, hy, -, rest, rfl⟩
  obtain ⟨b, y, rfl⟩ := List.exists_cons_of_ne_nil hy
  exact not_isStart_of_encode hc hx b List.mem_cons_self (h b rfl)

/-- In front of a byte that can start a character nothing is cut. -/
theorem runes_append_of_start (h : ∀ b ∈ bs.head?, IsStart b) :
    runes (a ++ bs) = runes a ++ runes bs :=
  runes_append (not_splits_of_start h)

/-! ### The parts of a character that is cut -/

theorem runes_continuation (hy : ∀ b ∈ y, ¬ IsStart b) (bs : Bytes) :
    runes (y ++ bs) = y.map .invalid ++ runes bs := by
  induction y with
  | nil => rfl
  | cons b y ih =>
    have hdecode : decodeRune (b :: (y ++ bs)) = none := by
      cases hsome : decodeRune (b :: (y ++ bs)) with
      | none => rfl
      | some c => exact absurd (isStart_of_decodeRune hsome) (hy b List.mem_cons_self)
    rw [List.cons_append, runes_invalid hdecode, ih fun d hd => hy d (List.mem_cons_of_mem _ hd)]
    rfl

theorem runes_incomplete {x y : Bytes} (hc : encode c = x ++ y) (hx : x ≠ []) (hy : y ≠ []) :
    runes x = x.map .invalid := by
  have hnone : decodeRune x = none := by
    cases hsome : decodeRune x with
    | none => rfl
    | some d =>
      obtain ⟨rest, rfl⟩ := decodeRune_eq_some.mp hsome
      have hinj : encode c ++ [] = encode d ++ (rest ++ y) := by
        rw [List.append_nil, hc, List.append_assoc]
      have hnil := (encode_append_inj hinj).2
      exact absurd (List.append_eq_nil_iff.mp hnil.symm).2 hy
  obtain ⟨b, x, rfl⟩ := List.exists_cons_of_ne_nil hx
  rw [List.cons_append] at hc
  have hcont : ∀ d ∈ x, ¬ IsStart d := fun d hd =>
    (isStart_encode hc).2 d (List.mem_append_left y hd)
  have hrest := runes_continuation hcont []
  rw [List.append_nil, runes_nil, List.append_nil] at hrest
  rw [runes_invalid hnone, hrest]
  rfl

/-- What the loop sees of a text that is cut inside a character, in one piece and in two. -/
theorem Splits.exists_runes (h : Splits a bs) :
    ∃ (c : Char) (x y : Bytes) (before after : List Rune), encode c = x ++ y ∧ x ≠ [] ∧ y ≠ [] ∧
      runes (a ++ bs) = before ++ .valid c :: after ∧
      runes a = before ++ x.map .invalid ∧ runes bs = y.map .invalid ++ after := by
  obtain ⟨c, x, y, hc, hx, hy, ⟨a, rfl⟩, ⟨bs, rfl⟩⟩ := h
  have hstart : ∀ t : Bytes, ∀ b ∈ (x ++ t).head?, IsStart b := by
    obtain ⟨b, x, rfl⟩ := List.exists_cons_of_ne_nil hx
    intro t d hd
    cases hd
    exact (isStart_encode hc).1
  refine ⟨c, x, y, runes a, runes bs, hc, hx, hy, ?_, ?_, ?_⟩
  · have hwhole : x ++ (y ++ bs) = encode c ++ bs := by
      rw [hc, List.append_assoc]
    rw [List.append_assoc, runes_append_of_start (hstart (y ++ bs)), hwhole, runes_encode_append]
  · have := hstart []
    rw [List.append_nil] at this
    rw [runes_append_of_start this, runes_incomplete hc hx hy]
  · exact runes_continuation (not_isStart_of_encode hc hx) bs

/-! ## ASCII -/

theorem encode_ascii (h : c.toNat < 128) : encode c = [c.toNat.toUInt8] := by
  have hsize : c.utf8Size = 1 := by
    rw [Char.utf8Size_eq_one_iff, UInt32.le_iff_toNat_le]
    exact Nat.le_of_lt_succ h
  rw [encode, String.utf8EncodeChar_eq_singleton hsize]
  rfl

theorem isStart_ascii (h : b.toNat < 128) : IsStart b := by
  have hall : ∀ n < 128, IsStart (UInt8.ofNat n) := by decide +kernel
  have hb := hall b.toNat h
  rwa [UInt8.ofNat_toNat] at hb

theorem toNat_ofNat_ascii {n : Nat} (h : n < 128) : (Char.ofNat n).toNat = n := by
  have hall : ∀ n < 128, (Char.ofNat n).toNat = n := by decide +kernel
  exact hall n h

theorem encode_ofNat (h : b.toNat < 128) : encode (Char.ofNat b.toNat) = [b] := by
  have htoNat := toNat_ofNat_ascii h
  rw [encode_ascii (by omega), htoNat]
  simp

/-- An ASCII byte is a character of its own, and in no encoding of another one. -/
theorem eq_ofNat_of_mem_encode (hb : b ∈ encode c) (hascii : b.toNat < 128) :
    c = Char.ofNat b.toNat := by
  obtain ⟨d, rest, hcons⟩ := List.exists_cons_of_ne_nil (encode_ne_nil c)
  have hfirst : b = d := by
    rw [hcons, List.mem_cons] at hb
    rcases hb with rfl | hrest
    · rfl
    · exact absurd (isStart_ascii hascii) ((isStart_encode hcons).2 b hrest)
  subst hfirst
  have hboth : encode c ++ [] = encode (Char.ofNat b.toNat) ++ rest := by
    rw [encode_ofNat hascii, List.append_nil, hcons]
    rfl
  exact (encode_append_inj hboth).1

@[simp] theorem runes_ascii (h : b.toNat < 128) (bs : Bytes) :
    runes (b :: bs) = .valid (Char.ofNat b.toNat) :: runes bs := by
  rw [← runes_encode_append, encode_ofNat h]
  rfl

theorem not_ascii_of_invalid (h : decodeRune (b :: bs) = none) : 128 ≤ b.toNat := by
  by_contra hascii
  have hdecode := decodeRune_encode (Char.ofNat b.toNat) bs
  rw [encode_ofNat (Nat.lt_of_not_le hascii), List.singleton_append, h] at hdecode
  cases hdecode

/-- An ASCII character is among the rounds exactly if its byte is in the text. -/
theorem exists_value_iff (hb : b.toNat < 128) (bs : Bytes) :
    (∃ r ∈ runes bs, r.value = Char.ofNat b.toNat) ↔ b ∈ bs := by
  induction bs using runes_induction with
  | hnil => simp
  | hvalid c bs ih =>
    have hc : c = Char.ofNat b.toNat ↔ b ∈ encode c := by
      constructor
      · rintro rfl
        rw [encode_ofNat hb]
        exact List.mem_singleton_self b
      · intro hmem
        exact eq_ofNat_of_mem_encode hmem hb
    rw [runes_encode_append, List.mem_append, ← ih, ← hc]
    simp [Rune.value]
  | hinvalid d bs hdecode ih =>
    have hne : b ≠ d := by
      rintro rfl
      have := not_ascii_of_invalid hdecode
      omega
    have hvalue : (Rune.invalid d).value ≠ Char.ofNat b.toNat := by
      intro heq
      have hnat := congrArg Char.toNat heq
      rw [toNat_ofNat_ascii hb] at hnat
      have hbig : (Rune.invalid d).value.toNat = 0xFFFD := rfl
      omega
    rw [runes_invalid hdecode, List.mem_cons, ← ih]
    simp [hne, hvalue]

/-! ## Valid texts -/

def Rune.isValid : Rune → Bool
  | valid _ => true
  | invalid _ => false

/-- `utf8.ValidString`. -/
def Valid (str : Bytes) : Prop := ∀ r ∈ runes str, r.isValid = true

instance (str : Bytes) : Decidable (Valid str) :=
  List.decidableBAll (fun r : Rune => r.isValid = true) (runes str)

end Utf8
