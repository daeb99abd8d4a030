import Tssh.Framework.Slice
import Tssh.Framework.Split
import Mathlib.Algebra.Ring.Nat

/-! # Commands of a tmux Integration

    In a tmux integration the terminal types commands, not keys.  While they are intercepted,
    `handleAndDecodeTmuxInput` (`tssh/tmuxcc.go`) takes the keys, the pane and a detach out of
    the complete commands of its input, and returns what is behind the last `\r` as the
    beginning of the next.

    `commands_append` and `input_append`: the commands and keys of a stream are those of its
    first piece and then those of the second with the unfinished command of the first in front.
-/

open Go

namespace TmuxInput

/-! ## Tokens -/

def text (s : String) : Bytes := s.toList.map (fun c => UInt8.ofNat c.toNat)

/-- The characters of `unicode.IsSpace` in UTF-8.  Each starts with a byte that cannot continue
    another character, so they are found without decoding what is around them. -/
def spaces : List Bytes :=
  [[0x09], [0x0a], [0x0b], [0x0c], [0x0d], [0x20], [0xc2, 0x85], [0xc2, 0xa0],
    [0xe1, 0x9a, 0x80]] ++
  (List.range 11).map (fun i => [0xe2, 0x80, 0x80 + UInt8.ofNat i]) ++
  [[0xe2, 0x80, 0xa8], [0xe2, 0x80, 0xa9], [0xe2, 0x80, 0xaf], [0xe2, 0x81, 0x9f],
    [0xe3, 0x80, 0x80]]

/-- The length of the space that the bytes start with, if they do. -/
def spaceLength (bs : Bytes) : Nat :=
  match spaces.find? (fun space => space.isPrefixOf bs) with
  | some space => space.length
  | none => 0

/-- `strings.Fields` with `skip` bytes of a space left and the field so far. -/
def fieldsFrom : Nat → Bytes → Bytes → List Bytes
  | _, field, [] => if field = [] then [] else [field]
  | skip + 1, field, _ :: bs => fieldsFrom skip field bs
  | 0, field, b :: bs =>
    match spaceLength (b :: bs) with
    | 0 => fieldsFrom 0 (field ++ [b]) bs
    | n + 1 => (if field = [] then [] else [field]) ++ fieldsFrom n [] bs

/-- `strings.Fields(string(bytes.TrimSpace(cmd)))`; the fields are the same without
    `TrimSpace`. -/
def fields (cmd : Bytes) : List Bytes := fieldsFrom 0 [] cmd

/-- A digit of `strconv.ParseUint`. -/
def digit (b : UInt8) : Option Nat :=
  if 48 ≤ b.toNat ∧ b.toNat ≤ 57 then some (b.toNat - 48)
  else if 97 ≤ (b ||| 0x20).toNat ∧ (b ||| 0x20).toNat ≤ 122 then
    some ((b ||| 0x20).toNat - 97 + 10)
  else none

/-- `strconv.ParseUint(s, base, bits)`; `none` is an error. -/
def parseUint (base bits : Nat) (s : Bytes) : Option Nat :=
  let value := s.foldl (fun acc b =>
    match acc, digit b with
    | some n, some d => if d < base then some (n * base + d) else none
    | _, _ => none) (some 0)
  match s, value with
  | [], _ => none
  | _, some n => if n < 2 ^ bits then some n else none
  | _, none => none

/-- On digits of the base `ParseUint` fails only because of the range. -/
theorem parseUint_digits {base bits : Nat} {s : Bytes} (hne : s ≠ [])
    (hs : ∀ b ∈ s, ∃ d < base, digit b = some d) :
    let value := s.foldl (fun n b => n * base + (digit b).getD 0) 0
    parseUint base bits s = if value < 2 ^ bits then some value else none := by
  have hfold : ∀ n, s.foldl (fun acc b =>
      match acc, digit b with
      | some n, some d => if d < base then some (n * base + d) else none
      | _, _ => none) (some n) = some (s.foldl (fun n b => n * base + (digit b).getD 0) n) := by
    clear hne
    induction s with
    | nil =>
      intro n
      rfl
    | cons b bs ih =>
      intro n
      obtain ⟨d, hlt, hb⟩ := hs b List.mem_cons_self
      rw [List.foldl_cons, List.foldl_cons, hb]
      simp only [if_pos hlt, Option.getD_some]
      exact ih (fun b hb => hs b (List.mem_cons_of_mem _ hb)) _
  unfold parseUint
  simp only [hfold 0]

/-- One argument of `send -t`. -/
def hexByte (hex : Bytes) : Option UInt8 :=
  match hex with
  | 48 :: 120 :: digits => (parseUint 16 8 digits).map UInt8.ofNat
  | _ => none

/-! ## Decoding -/

/-- What `handleAndDecodeTmuxInput` returns besides the unfinished command. -/
structure Decoded where
  input : Bytes
  paneId : Bytes
  detach : Bool
  deriving DecidableEq, Repr

def Decoded.empty : Decoded := { input := [], paneId := [], detach := false }

/-- The body of the inner loop. -/
def decodeCommand (d : Decoded) (cmd : Bytes) : Decoded :=
  let tokens := fields cmd
  let d := if tokens.head? = some (text "detach") then { d with detach := true } else d
  match tokens with
  | verb :: flag :: pane :: args =>
    if verb = text "send" then
      if flag = text "-lt" then
        { d with paneId := pane, input := d.input ++ args.headD [] }
      else if flag = text "-t" then
        { d with paneId := pane, input := d.input ++ args.filterMap hexByte }
      else d
    else if verb = text "select-pane" ∨ verb = text "display-message" then
      if flag = text "-t" then { d with paneId := pane } else d
    else d
  | _ => d

/-- A quote that ``strings.Trim(paneId, `"'`)`` removes. -/
def isQuote (b : UInt8) : Bool := b == 34 || b == 39

/-- The number of a pane that is written `%` and a number of 32 bits; else nothing. -/
def checkPaneId (paneId : Bytes) : Bytes :=
  match ((paneId.dropWhile isQuote).reverse.dropWhile isQuote).reverse with
  | 37 :: number => if (parseUint 10 32 number).isSome then number else []
  | _ => []

/-- The complete commands of an input: each part that `\r` ends, split at `;`. -/
def commands (buf : Bytes) : List Bytes :=
  (Split.complete 13 buf).flatMap (fun part => part.splitOn 59)

/-- What is behind the last `\r`. -/
def unfinished (buf : Bytes) : Bytes := Split.rest 13 buf

def handleAndDecodeTmuxInput (buf : Bytes) : Decoded :=
  let d := (commands buf).foldl decodeCommand .empty
  { d with paneId := checkPaneId d.paneId }

/-- The unfinished command as the slice that is returned: the last part of `bytes.Split`, which
    keeps the capacity of the buffer. -/
def lastPart (buf : Slice) (bytes : Bytes) : Option Slice :=
  if unfinished bytes = [] then none
  else some (buf.dropFront (buf.len - (unfinished bytes).length))

/-! ## Decoding a stream in pieces -/

/-- The keys in one command. -/
def commandInput (cmd : Bytes) : Bytes := (decodeCommand .empty cmd).input

theorem decodeCommand_input (d : Decoded) (cmd : Bytes) :
    (decodeCommand d cmd).input = d.input ++ commandInput cmd := by
  have hdetach : ∀ (c : Prop) [Decidable c] (x : Decoded),
      (if c then { x with detach := true } else x).input = x.input := by
    intro c _ x
    split
    · rfl
    · rfl
  unfold commandInput decodeCommand
  dsimp only
  split
  · split_ifs <;> simp [Decoded.empty]
  · rw [hdetach, hdetach]
    simp [Decoded.empty]

theorem foldl_decodeCommand_input (cmds : List Bytes) (d : Decoded) :
    (cmds.foldl decodeCommand d).input = d.input ++ cmds.flatMap commandInput := by
  induction cmds generalizing d with
  | nil => simp
  | cons cmd cmds ih =>
    rw [List.foldl_cons, ih, decodeCommand_input, List.flatMap_cons, List.append_assoc]

theorem decoded_input (buf : Bytes) :
    (handleAndDecodeTmuxInput buf).input = (commands buf).flatMap commandInput :=
  foldl_decodeCommand_input (commands buf) .empty

theorem commands_nil : commands [] = [] := by
  rw [commands, Split.complete_nil]
  rfl

theorem unfinished_nil : unfinished [] = [] := Split.rest_nil

theorem input_nil : (handleAndDecodeTmuxInput []).input = [] := by
  rw [decoded_input, commands_nil]
  rfl

theorem commands_append (xs ys : Bytes) :
    commands (xs ++ ys) = commands xs ++ commands (unfinished xs ++ ys) := by
  unfold commands unfinished
  rw [Split.complete_append, List.flatMap_append]

theorem unfinished_append (xs ys : Bytes) :
    unfinished (xs ++ ys) = unfinished (unfinished xs ++ ys) := Split.rest_append xs ys

theorem input_append (xs ys : Bytes) :
    (handleAndDecodeTmuxInput (xs ++ ys)).input =
      (handleAndDecodeTmuxInput xs).input ++
        (handleAndDecodeTmuxInput (unfinished xs ++ ys)).input := by
  rw [decoded_input, decoded_input, decoded_input, commands_append, List.flatMap_append]

/-- The slice that is returned shows the unfinished command. -/
theorem lastPart_spec {h : Heap} {buf part : Slice} (hbuf : buf.Valid h)
    (hpart : lastPart buf (buf.bytes h) = some part) :
    part.Valid h ∧ part.bytes h = unfinished (buf.bytes h) ∧ part.arr = buf.arr := by
  unfold lastPart at hpart
  split at hpart
  · cases hpart
  · cases hpart
    have hlen := hbuf.length_bytes
    refine ⟨hbuf.dropFront (Nat.sub_le _ _), ?_, rfl⟩
    rw [Slice.bytes_dropFront, ← hlen]
    exact (List.suffix_iff_eq_drop.mp (Split.rest_suffix _).1).symm

theorem lastPart_eq_none {buf : Slice} {bytes : Bytes} (h : lastPart buf bytes = none) :
    unfinished bytes = [] := by
  unfold lastPart at h
  split at h
  · assumption
  · cases h

end TmuxInput
