import Mathlib.Data.List.Basic

/-! # Text and Wildcard Patterns of `sshd_config`

    The text functions of Go that the configuration code uses, on lists of characters, and
    the wildcard patterns of `tsshd/sshd_config.go`: `wildcardToRegexp` translates a pattern
    into a regular expression between `^` and `$`, in which `*` is `.*`, `?` is `.`, and
    every other character stands for itself (the special ones are escaped).  As in Go, `.`
    does not match a newline.
-/

namespace Sshd

/-- A Go string, as its characters. -/
abbrev Text := List Char

scoped instance instLawfulBEqText : LawfulBEq Text := List.instLawfulBEq

/-- `unicode.IsSpace`. -/
def isSpace (c : Char) : Bool :=
  c ∈ ['\t', '\n', '\x0b', '\x0c', '\r', ' ', '\u0085', '\u00a0', '\u1680', '\u2028', '\u2029',
    '\u202f', '\u205f', '\u3000'] ||
  ('\u2000' ≤ c && c ≤ '\u200a')

/-- `strings.TrimSpace`. -/
def trimSpace (s : Text) : Text :=
  ((s.dropWhile isSpace).reverse.dropWhile isSpace).reverse

/-- `strings.ToLower`.  The mapping of characters outside ASCII is left out: no such
    character becomes a letter of `user`, `group` or `all`, the only words the result is
    compared with. -/
def toLower (s : Text) : Text := s.map Char.toLower

/-- `strings.Fields`. -/
def fields (s : Text) : List Text := (s.splitOnP isSpace).filter (· ≠ [])

/-! ### Blanks and fields -/

/-- The visible characters of ASCII are no blanks. -/
theorem isSpace_of_visible {c : Char} (hlow : 32 < c.toNat) (hhigh : c.toNat < 127) :
    isSpace c = false := by
  by_contra hspace
  rw [Bool.not_eq_false, isSpace, Bool.or_eq_true] at hspace
  rcases hspace with hlist | hrange
  · have hnone : ['\t', '\n', '\x0b', '\x0c', '\r', ' ', '\u0085', '\u00a0', '\u1680', '\u2028',
        '\u2029', '\u202f', '\u205f', '\u3000'].all
        (fun d => decide (d.toNat ≤ 32 ∨ 127 ≤ d.toNat)) = true := rfl
    have hc := of_decide_eq_true (List.all_eq_true.mp hnone c (of_decide_eq_true hlist))
    omega
  · rw [Bool.and_eq_true, decide_eq_true_eq] at hrange
    have hc : 8192 ≤ c.toNat := hrange.1
    omega

theorem trimSpace_eq_self {w : Text} (h : ∀ c ∈ w, isSpace c = false) : trimSpace w = w := by
  have hdrop : ∀ w : Text, (∀ c ∈ w, isSpace c = false) → w.dropWhile isSpace = w := by
    intro w hw
    cases w with
    | nil => rfl
    | cons c w => rw [List.dropWhile_cons_of_neg (by simp [hw c List.mem_cons_self])]
  have hreverse : ∀ c ∈ w.reverse, isSpace c = false := fun c hc => h c (List.mem_reverse.mp hc)
  rw [trimSpace, hdrop w h, hdrop w.reverse hreverse, List.reverse_reverse]

/-- Elements that do not split stay with what follows them. -/
theorem splitOnP_append_left {p : Char → Bool} {w : Text} (hw : ∀ c ∈ w, p c = false) (t : Text) :
    (w ++ t).splitOnP p = (t.splitOnP p).modifyHead (w ++ ·) := by
  induction w with
  | nil =>
    rw [List.nil_append]
    cases t.splitOnP p with
    | nil => rfl
    | cons seg segs => rfl
  | cons c w ih =>
    have hc := hw c List.mem_cons_self
    have ih := ih fun d hd => hw d (List.mem_cons_of_mem _ hd)
    rw [List.cons_append, List.splitOnP_cons_eq_if_modifyHead, hc, ih]
    cases t.splitOnP p with
    | nil => rfl
    | cons seg segs => rfl

theorem fields_cons_space {c : Char} (hc : isSpace c = true) (t : Text) :
    fields (c :: t) = fields t := by
  simp [fields, List.splitOnP_cons_eq_if_modifyHead, hc]

/-- Characters that are no blanks, in front of a blank or at the end, are a field. -/
theorem fields_append {w t : Text} (hne : w ≠ []) (hw : ∀ c ∈ w, isSpace c = false)
    (ht : ∀ c ∈ t.head?, isSpace c = true) : fields (w ++ t) = w :: fields t := by
  rw [fields, splitOnP_append_left hw]
  match t with
  | [] => simp [fields, hne]
  | c :: t =>
    have hc : isSpace c = true := ht c rfl
    rw [fields_cons_space hc, List.splitOnP_cons_eq_if_modifyHead, if_pos hc, List.modifyHead_cons,
      List.append_nil, List.filter_cons_of_pos (by simpa using hne)]
    rfl

theorem not_of_mem_splitOnP {p : Char → Bool} {s t : Text} (ht : t ∈ s.splitOnP p) :
    ∀ c ∈ t, p c = false := by
  induction s generalizing t with
  | nil => simp_all [List.splitOnP_nil]
  | cons d s ih =>
    rw [List.splitOnP_cons_eq_if_modifyHead] at ht
    split at ht
    · rcases List.mem_cons.mp ht with rfl | ht
      · nofun
      · exact ih ht
    · next hd =>
      cases hsplit : s.splitOnP p with
      | nil => simp [hsplit] at ht
      | cons seg segs =>
        rw [hsplit, List.modifyHead_cons] at ht
        rcases List.mem_cons.mp ht with rfl | ht
        · intro c hc
          rcases List.mem_cons.mp hc with rfl | hc
          · exact Bool.eq_false_iff.mpr hd
          · exact ih (by simp [hsplit]) c hc
        · exact ih (by simp [hsplit, ht])

theorem isSpace_of_mem_fields {s t : Text} (ht : t ∈ fields s) : ∀ c ∈ t, isSpace c = false :=
  not_of_mem_splitOnP (List.mem_of_mem_filter ht)

/-! ## Wildcards -/

/-- What a character of a pattern is translated into: a literal, `.` or `.*`. -/
inductive Item where
  | lit (c : Char)
  | any
  | anyStar
  deriving DecidableEq, Repr

/-- `wildcardToRegexp`, without the anchors at both ends. -/
def wildcardToRegexp (pattern : Text) : List Item :=
  pattern.map fun c => if c = '*' then .anyStar else if c = '?' then .any else .lit c

/-- The rests of a text that `.*` can leave. -/
def afterStar : Text → List Text
  | [] => [[]]
  | c :: s => (c :: s) :: if c = '\n' then [] else afterStar s

/-- Whether the expression matches the whole text, as the anchors demand. -/
def matchItems : List Item → Text → Bool
  | [], s => s.isEmpty
  | .lit c :: re, s => s.head? = some c && matchItems re s.tail
  | .any :: re, s => (s.head?.any (· ≠ '\n')) && matchItems re s.tail
  | .anyStar :: re, s => (afterStar s).any (matchItems re)

def wildcardMatch (pattern value : Text) : Bool := matchItems (wildcardToRegexp pattern) value

example : wildcardMatch "LC_*".toList "LC_ALL".toList = true := by decide
example : wildcardMatch "h?st".toList "hst".toList = false := by decide

end Sshd
