import Tssh.Framework.Slice
import Tssh.Framework.Pattern

/-! # The Line Cache of `forwardOutput`

    While the client is away, `forwardOutput` keeps program output in lines
    (`cacheOutput`), drops the oldest ones when there are too many, and later
    reports them in a warning (`warningLine`), which for tmux control mode is
    wrapped into an output message (`encodeTmuxOutput`).

    What the rest of the development uses of these functions:

    * **No byte is lost**: `cacheAll_flatten` and `cacheOutput_spec` say that the
      dropped lines and the cached lines are together what was cached before and
      the new output.
    * **Lines end at newlines**: a cached line and a warning contain a newline
      only as their last byte (`IsLine`, `NewlineOnlyLast`).
    * **The cache is bounded**: `length_cacheOutput_le`.
-/

open Go Pattern

namespace Output

/-! ## Bytes -/

/-- The bytes of an ASCII text. -/
def ascii (text : String) : Bytes := text.toList.map (fun c => UInt8.ofNat c.toNat)

/-- Go's `'\n'`. -/
def newline : UInt8 := 10

/-- Go's `'\r'`. -/
def carriageReturn : UInt8 := 13

/-- The cursor position request `ESC[6n`. -/
def esc6n : Bytes := [27, 91, 54, 110]

/-- What `%d` prints. -/
def decimal (n : Nat) : Bytes := (Nat.toDigits 10 n).map (fun c => UInt8.ofNat c.toNat)

/-- What `\\%03o` prints. -/
def octal (b : UInt8) : Bytes := [92, 48 + b / 64, 48 + b / 8 % 8, 48 + b % 8]

/-- `buf[:pos+1]` and `buf[pos+1:]`. -/
def cutAt (buf : Bytes) (pos : Nat) : Bytes × Bytes := (buf.take (pos + 1), buf.drop (pos + 1))

/-! ## Caching -/

/-- The two numbers the limit of the cache is made of. -/
structure Config where
  maxPendingOutputLines : Nat
  rows : Int
  pos : 0 < maxPendingOutputLines

/-- `max(maxPendingOutputLines, c.rows*2)`. -/
def Config.maxLines (cfg : Config) : Nat := max cfg.maxPendingOutputLines (cfg.rows * 2).toNat

/-- The variables `cacheOutput` and `flushOutput` share.  `dropped` is history: all lines
    dropped so far. -/
structure Cache where
  cacheLines : List Bytes
  tmuxOutputPrefix : Bytes
  discardLines : Nat
  discardBytes : Nat
  dropped : List Bytes
  deriving DecidableEq, Repr

def Cache.empty : Cache := ⟨[], [], 0, 0, []⟩

/-- The next line of `buf` and what follows it: up to the first newline, in a buffer without
    one up to the first carriage return, in a buffer without either everything. -/
def nextLine (buf : Bytes) : Bytes × Bytes :=
  match buf.idxOf? newline with
  | some pos => cutAt buf pos
  | none =>
    match buf.idxOf? carriageReturn with
    | some pos => cutAt buf pos
    | none => (buf, [])

/-- Whether `line` continues the line `last` instead of starting a new one. -/
def continues (last line : Bytes) : Bool :=
  last.getLast? ≠ some newline &&
    (last.getLast? ≠ some carriageReturn || line.head? = some newline) && last.length < 1000

def addLine (cacheLines : List Bytes) (line : Bytes) : List Bytes :=
  match cacheLines.getLast? with
  | none => [line]
  | some last =>
    if continues last line then cacheLines.dropLast ++ [last ++ line] else cacheLines ++ [line]

/-- The loop of `cacheOutput`; every round takes at least one byte, so the length of the
    buffer is fuel enough. -/
def cacheLoop : Nat → List Bytes → Bytes → List Bytes
  | 0, cacheLines, _ => cacheLines
  | fuel + 1, cacheLines, buf =>
    if buf = [] then cacheLines
    else cacheLoop fuel (addLine cacheLines (nextLine buf).1) (nextLine buf).2

def cacheAll (cacheLines : List Bytes) (buf : Bytes) : List Bytes :=
  cacheLoop buf.length cacheLines buf

/-- Where the pane of a tmux output message begins. -/
def tmuxOutputIdx (line : Bytes) : Option Nat :=
  if ascii "%output %" <+: line then some 8
  else if ascii "%extended-output %" <+: line then some 17
  else none

/-- The loop of `extractTmuxOutputPrefix` with the messages seen so far. -/
def extractLoop (enough : Nat) : Nat → List Bytes → Bytes
  | _, [] => []
  | tmuxOutputCount, line :: rest =>
    match tmuxOutputIdx line with
    | none => extractLoop enough tmuxOutputCount rest
    | some idx =>
      -- a few messages must have been seen, then the first with a pane decides
      if enough ≤ tmuxOutputCount + 1 then
        match (line.drop idx).idxOf? 32 with
        | some (pos + 1) => ascii "%output " ++ (line.drop idx).take (pos + 2)
        | _ => extractLoop enough (tmuxOutputCount + 1) rest
      else extractLoop enough (tmuxOutputCount + 1) rest

def extractTmuxOutputPrefix (cfg : Config) (cacheLines : List Bytes) : Bytes :=
  extractLoop (min 10 cfg.maxPendingOutputLines) 0 cacheLines

/-- Drop the oldest lines of a cache that is over its limit. -/
def dropOldest (cfg : Config) (c : Cache) : Cache :=
  if c.cacheLines.length > cfg.maxLines then
    let dropLines := c.cacheLines.length - cfg.maxLines
    { cacheLines := c.cacheLines.drop dropLines
      -- the pane is looked up when the first lines are dropped
      tmuxOutputPrefix :=
        if c.discardLines = 0 then extractTmuxOutputPrefix cfg c.cacheLines
        else c.tmuxOutputPrefix
      discardLines := c.discardLines + dropLines
      discardBytes := c.discardBytes + (c.cacheLines.take dropLines).flatten.length
      dropped := c.dropped ++ c.cacheLines.take dropLines }
  else c

def cacheOutput (cfg : Config) (c : Cache) (buf : Bytes) : Cache :=
  dropOldest cfg { c with cacheLines := cacheAll c.cacheLines buf }

/-! ## Flushing -/

/-- The text of the warning. -/
def warningText (discardLines discardBytes : Nat) (newline : Bytes) : Bytes :=
  ascii "\r\x1b[0;33mWarning: tsshd discarded " ++ decimal discardLines ++ ascii " lines " ++
    decimal discardBytes ++
    ascii " bytes of output during client disconnection at this point!\x1b[0m\x1b[K" ++ newline

def encodeByte (b : UInt8) : Bytes := if b < 32 ∨ b = 92 ∨ b > 126 then octal b else [b]

def encodeTmuxOutput (tmuxPrefix output : Bytes) : Bytes :=
  tmuxPrefix ++ output.flatMap encodeByte ++ [carriageReturn, newline]

/-- How a warning ends: as the first line that follows it. -/
def warningEnd (cacheLines : List Bytes) : Bytes :=
  if (cacheLines.head?.bind (·.getLast?)) = some carriageReturn then [carriageReturn]
  else [carriageReturn, newline]

/-- The warning as it is sent. -/
def warningLine (discardLines discardBytes : Nat) (tmuxPrefix ending : Bytes) : Bytes :=
  if tmuxPrefix = [] then warningText discardLines discardBytes ending
  else encodeTmuxOutput tmuxPrefix (warningText discardLines discardBytes ending)

/-- A cached line as it is sent, without the cursor position requests. -/
def filterLine (line : Bytes) : Bytes := removeAll esc6n line

/-! ## Newlines only at the end -/

/-- A newline occurs at most as the last byte. -/
def NewlineOnlyLast (l : Bytes) : Prop := newline ∉ l.dropLast

instance (l : Bytes) : Decidable (NewlineOnlyLast l) :=
  inferInstanceAs (Decidable (newline ∉ l.dropLast))

/-- What the cache holds: not empty, and a newline at most at the end. -/
structure IsLine (l : Bytes) : Prop where
  nonempty : l ≠ []
  newline : NewlineOnlyLast l

theorem NewlineOnlyLast.append {x y : Bytes} (hx : newline ∉ x) (hy : NewlineOnlyLast y) :
    NewlineOnlyLast (x ++ y) := by
  unfold NewlineOnlyLast at *
  by_cases hnil : y = []
  · rw [hnil, List.append_nil]
    exact fun h => hx (List.mem_of_mem_dropLast h)
  · rw [List.dropLast_append_of_ne_nil hnil, List.mem_append]
    exact fun h => h.elim hx hy

theorem NewlineOnlyLast.of_notMem {x : Bytes} (hx : newline ∉ x) : NewlineOnlyLast x :=
  fun h => hx (List.mem_of_mem_dropLast h)

variable {buf l : Bytes} {lines : List Bytes}

/-- A line that does not end with a newline has none. -/
theorem NewlineOnlyLast.notMem (h : NewlineOnlyLast l) (hlast : l.getLast? ≠ some newline) :
    newline ∉ l := by
  intro hmem
  have hne : l ≠ [] := List.ne_nil_of_mem hmem
  rw [← List.dropLast_append_getLast hne, List.mem_append, List.mem_singleton] at hmem
  rcases hmem with hmem | hmem
  · exact h hmem
  · exact hlast (by rw [List.getLast?_eq_some_getLast hne, ← hmem])

/-- The first newline of a line that has one is its end. -/
theorem NewlineOnlyLast.eq_of_append {l x y : Bytes} (h : NewlineOnlyLast l)
    (hl : l = x ++ newline :: y) : y = [] := by
  by_contra hy
  apply h
  rw [hl, List.dropLast_append_of_ne_nil (List.cons_ne_nil _ _), List.dropLast_cons_of_ne_nil hy]
  simp

theorem NewlineOnlyLast.sublist {l l' : Bytes} (h : NewlineOnlyLast l) (hs : l'.Sublist l) :
    NewlineOnlyLast l' := by
  have htail : l'.dropLast.Sublist l.dropLast := by
    simpa [List.tail_reverse] using (List.reverse_sublist.mpr hs).tail
  exact fun hmem => h (htail.subset hmem)

theorem esc6n_ne_nil : esc6n ≠ [] := by decide

theorem esc6n_unbordered : Unbordered esc6n := by decide

theorem filterLine_newlineOnlyLast (h : NewlineOnlyLast l) : NewlineOnlyLast (filterLine l) :=
  h.sublist (removeAll_sublist esc6n_ne_nil l)

/-! ## Lines of a buffer -/

theorem idxOf?_some {b : UInt8} {pos : Nat} (h : buf.idxOf? b = some pos) :
    ∃ x y, buf = x ++ b :: y ∧ b ∉ x ∧ cutAt buf pos = (x ++ [b], y) := by
  obtain ⟨hlt, hat, hbefore⟩ := List.findIdx?_eq_some_iff_getElem.mp h
  have hsplit : buf = buf.take pos ++ b :: buf.drop (pos + 1) := by
    have hb : buf[pos] = b := by simpa using hat
    rw [← hb, List.cons_getElem_drop_succ, List.take_append_drop]
  refine ⟨buf.take pos, buf.drop (pos + 1), hsplit, ?_, ?_⟩
  · intro hmem
    obtain ⟨i, hi, hget⟩ := List.mem_iff_getElem.mp hmem
    rw [List.length_take] at hi
    rw [List.getElem_take] at hget
    exact hbefore i (by omega) (by simpa using hget)
  · have hb : buf[pos] = b := by simpa using hat
    rw [cutAt, List.take_succ_eq_append_getElem hlt, hb]

theorem idxOf?_none {b : UInt8} (h : buf.idxOf? b = none) : b ∉ buf := by
  intro hmem
  have hno := List.findIdx?_eq_none_iff.mp h b hmem
  simp at hno

/-- What one round of `cacheOutput` cuts off: a line, which ends the buffer or ends with a
    newline or a carriage return. -/
theorem nextLine_spec (hbuf : buf ≠ []) :
    (nextLine buf).1 ++ (nextLine buf).2 = buf ∧ IsLine (nextLine buf).1 ∧
      ((nextLine buf).2 = [] ∨ ∃ x b, (nextLine buf).1 = x ++ [b] ∧ b ∉ esc6n) := by
  unfold nextLine
  match hn : buf.idxOf? newline with
  | some pos =>
    obtain ⟨x, y, rfl, hx, hcut⟩ := idxOf?_some hn
    simp only [hcut]
    exact ⟨by simp, ⟨by simp, .append hx (by decide)⟩, .inr ⟨x, newline, rfl, by decide⟩⟩
  | none =>
    have hno := idxOf?_none hn
    match hr : buf.idxOf? carriageReturn with
    | some pos =>
      obtain ⟨x, y, rfl, -, hcut⟩ := idxOf?_some hr
      simp only [hcut]
      have hx : newline ∉ x := fun h => hno (by simp [h])
      exact ⟨by simp, ⟨by simp, .append hx (by decide)⟩,
        .inr ⟨x, carriageReturn, rfl, by decide⟩⟩
    | none => exact ⟨by simp, ⟨hbuf, .of_notMem hno⟩, .inl rfl⟩

theorem length_nextLine_lt (hbuf : buf ≠ []) : (nextLine buf).2.length < buf.length := by
  obtain ⟨happend, hline, -⟩ := nextLine_spec hbuf
  have hpos := List.length_pos_of_ne_nil hline.nonempty
  have hlen := congrArg List.length happend
  rw [List.length_append] at hlen
  omega

/-! ## The cached lines -/

theorem addLine_nil (line : Bytes) : addLine [] line = [line] := rfl

theorem addLine_concat (lines : List Bytes) (last line : Bytes) :
    addLine (lines ++ [last]) line =
      if continues last line then lines ++ [last ++ line] else lines ++ [last, line] := by
  simp [addLine]

/-- **Loop rule**: what every round keeps holds at the end, with the rest of the buffer
    used up. -/
theorem cacheLoop_induction {P : List Bytes → Bytes → Prop}
    (step : ∀ lines buf, buf ≠ [] → P lines buf →
      P (addLine lines (nextLine buf).1) (nextLine buf).2) {fuel : Nat} (hfuel : buf.length ≤ fuel)
    (h : P lines buf) : P (cacheLoop fuel lines buf) [] := by
  induction fuel generalizing lines buf with
  | zero =>
    have hnil : buf = [] := List.eq_nil_of_length_eq_zero (by omega)
    exact hnil ▸ h
  | succ fuel ih =>
    rw [cacheLoop]
    split
    · next hnil => exact hnil ▸ h
    · next hne =>
      have hlt := length_nextLine_lt hne
      exact ih (by omega) (step lines buf hne h)

theorem addLine_flatten (lines : List Bytes) (line : Bytes) :
    (addLine lines line).flatten = lines.flatten ++ line := by
  rcases List.eq_nil_or_concat lines with rfl | ⟨lines, last, rfl⟩
  · simp [addLine_nil]
  · rw [List.concat_eq_append, addLine_concat]
    split <;> simp

theorem addLine_isLine {line : Bytes} (hlines : ∀ l ∈ lines, IsLine l) (hline : IsLine line) :
    ∀ l ∈ addLine lines line, IsLine l := by
  rcases List.eq_nil_or_concat lines with rfl | ⟨lines, last, rfl⟩
  · simpa [addLine_nil] using hline
  · rw [List.concat_eq_append] at hlines ⊢
    have hlast : IsLine last := hlines last (by simp)
    rw [addLine_concat]
    split
    · next hcont =>
      -- a line is only continued if it does not end with a newline
      have hno : last.getLast? ≠ some newline := by
        simp only [continues, Bool.and_eq_true, decide_eq_true_eq] at hcont
        exact hcont.1.1
      have hjoin : IsLine (last ++ line) :=
        ⟨by simp [hlast.nonempty], .append (hlast.newline.notMem hno) hline.newline⟩
      intro l hl
      rcases List.mem_append.mp hl with hl | hl
      · exact hlines l (by simp [hl])
      · exact List.mem_singleton.mp hl ▸ hjoin
    · intro l hl
      simp only [List.mem_append, List.mem_cons, List.not_mem_nil, or_false] at hl
      rcases hl with hl | rfl | rfl
      · exact hlines l (by simp [hl])
      · exact hlast
      · exact hline

theorem addLine_ne_nil (lines : List Bytes) (line : Bytes) : addLine lines line ≠ [] := by
  rcases List.eq_nil_or_concat lines with rfl | ⟨lines, last, rfl⟩
  · simp [addLine_nil]
  · rw [List.concat_eq_append, addLine_concat]
    split <;> simp

theorem cacheAll_flatten (lines : List Bytes) (buf : Bytes) :
    (cacheAll lines buf).flatten = lines.flatten ++ buf := by
  have h := cacheLoop_induction
    (P := fun ls rest => ls.flatten ++ rest = lines.flatten ++ buf)
    (fun ls rest hne h => by
      rw [addLine_flatten, List.append_assoc, (nextLine_spec hne).1]
      exact h)
    (le_refl buf.length) rfl
  exact (List.append_nil _).symm.trans h

theorem cacheAll_isLine (buf : Bytes) (hlines : ∀ l ∈ lines, IsLine l) :
    ∀ l ∈ cacheAll lines buf, IsLine l :=
  cacheLoop_induction (P := fun ls _ => ∀ l ∈ ls, IsLine l)
    (fun _ _ hne h => addLine_isLine h (nextLine_spec hne).2.1) (le_refl buf.length) hlines

theorem cacheAll_eq_nil (h : cacheAll lines buf = []) : lines = [] ∧ buf = [] := by
  constructor
  · by_contra hne
    exact cacheLoop_induction (P := fun ls _ => ls ≠ []) (fun _ _ _ _ => addLine_ne_nil _ _)
      (le_refl buf.length) hne h
  · have hflat := cacheAll_flatten lines buf
    rw [h] at hflat
    exact (List.append_eq_nil_iff.mp hflat.symm).2

/-! ## Dropping -/

theorem Config.maxLines_pos (cfg : Config) : 0 < cfg.maxLines :=
  lt_of_lt_of_le cfg.pos (le_max_left _ _)

/-- What `cacheOutput` does to the cache, as a whole: some of the oldest lines are dropped and
    counted, and the rest stays, which is not empty if any are dropped. -/
theorem cacheOutput_spec (cfg : Config) (c : Cache) (buf : Bytes) :
    ∃ gone, cacheAll c.cacheLines buf = gone ++ (cacheOutput cfg c buf).cacheLines ∧
      (cacheOutput cfg c buf).dropped = c.dropped ++ gone ∧
      (cacheOutput cfg c buf).discardLines = c.discardLines + gone.length ∧
      (cacheOutput cfg c buf).discardBytes = c.discardBytes + gone.flatten.length ∧
      (gone ≠ [] → (cacheOutput cfg c buf).cacheLines ≠ []) := by
  have hpos := cfg.maxLines_pos
  unfold cacheOutput dropOldest
  split
  · refine ⟨_, (List.take_append_drop _ _).symm, rfl, ?_, rfl, fun _ => ?_⟩
    · simp only [List.length_take]
      omega
    · apply List.ne_nil_of_length_pos
      simp only [List.length_drop] at *
      omega
  · exact ⟨[], by simp⟩

theorem length_cacheOutput_le (cfg : Config) (c : Cache) (buf : Bytes) :
    (cacheOutput cfg c buf).cacheLines.length ≤ cfg.maxLines := by
  unfold cacheOutput dropOldest
  split
  · simp only [List.length_drop]
    omega
  · next h => exact Nat.le_of_not_lt h

/-- After `cacheOutput` the cache is only empty if it was, with nothing to cache or to drop. -/
theorem cacheOutput_eq_nil {cfg : Config} {c : Cache}
    (hnil : (cacheOutput cfg c buf).cacheLines = []) :
    c.cacheLines = [] ∧ buf = [] ∧ (cacheOutput cfg c buf).discardLines = c.discardLines := by
  obtain ⟨gone, hsplit, -, hlines, -, hkeep⟩ := cacheOutput_spec cfg c buf
  have hgone : gone = [] := by
    by_contra hne
    exact hkeep hne hnil
  rw [hgone, hnil] at hsplit
  obtain ⟨hcache, hbuf⟩ := cacheAll_eq_nil hsplit
  exact ⟨hcache, hbuf, by rw [hlines, hgone]; rfl⟩

/-! ## Warnings -/

theorem newline_notMem_decimal (n : Nat) : newline ∉ decimal n := by
  intro hmem
  obtain ⟨c, hc, hbyte⟩ := List.mem_map.mp hmem
  have hdigit := Nat.isDigit_of_mem_toDigits (by decide) (by decide) hc
  simp only [Char.isDigit, Bool.and_eq_true, decide_eq_true_eq] at hdigit
  have hlow : 48 ≤ c.toNat := hdigit.1
  have hhigh : c.toNat ≤ 57 := hdigit.2
  have hval := congrArg UInt8.toNat hbyte
  have hten : newline.toNat = 10 := rfl
  rw [UInt8.toNat_ofNat', hten] at hval
  omega

theorem warningText_newlineOnlyLast (lines bytes : Nat) {ending : Bytes}
    (hending : NewlineOnlyLast ending) : NewlineOnlyLast (warningText lines bytes ending) := by
  apply NewlineOnlyLast.append _ hending
  simp only [List.mem_append, not_or]
  exact ⟨⟨⟨⟨by decide, newline_notMem_decimal lines⟩, by decide⟩, newline_notMem_decimal bytes⟩,
    by decide⟩

theorem newline_notMem_encodeByte (b : UInt8) : newline ∉ encodeByte b := by
  -- one check for each of the 256 bytes
  have hall : ∀ n : Fin 256, newline ∉ encodeByte (UInt8.ofNat n) := by decide +kernel
  simpa using hall ⟨b.toNat, b.toNat_lt⟩

theorem encodeTmuxOutput_newlineOnlyLast {tmuxPrefix : Bytes} (htmux : newline ∉ tmuxPrefix)
    (output : Bytes) : NewlineOnlyLast (encodeTmuxOutput tmuxPrefix output) := by
  apply NewlineOnlyLast.append _ (by decide)
  simp only [List.mem_append, List.mem_flatMap, not_or, not_exists, not_and]
  exact ⟨htmux, fun b _ => newline_notMem_encodeByte b⟩

theorem warningLine_newlineOnlyLast (lines bytes : Nat) {tmuxPrefix ending : Bytes}
    (htmux : newline ∉ tmuxPrefix) (hending : NewlineOnlyLast ending) :
    NewlineOnlyLast (warningLine lines bytes tmuxPrefix ending) := by
  unfold warningLine
  split
  · exact warningText_newlineOnlyLast lines bytes hending
  · exact encodeTmuxOutput_newlineOnlyLast htmux _

theorem warningEnd_newlineOnlyLast (cacheLines : List Bytes) :
    NewlineOnlyLast (warningEnd cacheLines) := by
  unfold warningEnd
  split <;> decide

/-- The pane of a message ends with the first space of its line, so before the newline. -/
theorem newline_notMem_extractLoop (enough count : Nat) (hlines : ∀ l ∈ lines, NewlineOnlyLast l) :
    newline ∉ extractLoop enough count lines := by
  induction lines generalizing count with
  | nil => simp [extractLoop]
  | cons line rest ih =>
    have hrest := fun n => ih n (fun l hl => hlines l (List.mem_cons_of_mem line hl))
    rw [extractLoop]
    split
    · exact hrest count
    · next idx _ =>
      split
      · split
        · next pos hpos =>
          obtain ⟨x, y, hsplit, -, hcut⟩ := idxOf?_some hpos
          have htake : (line.drop idx).take (pos + 2) = x ++ [32] := congrArg Prod.fst hcut
          -- a newline in the pane would have the space behind it on the same line
          have hx : newline ∉ x := by
            intro hmem
            obtain ⟨x₁, x₂, rfl⟩ := List.append_of_mem hmem
            have hline : line = line.take idx ++ x₁ ++ newline :: (x₂ ++ 32 :: y) := by
              rw [List.append_assoc, ← List.cons_append, ← List.append_assoc x₁, ← hsplit,
                List.take_append_drop]
            simpa using (hlines line List.mem_cons_self).eq_of_append hline
          rw [htake]
          simp only [List.mem_append, List.mem_singleton, not_or]
          exact ⟨by decide, hx, by decide⟩
        · exact hrest (count + 1)
      · exact hrest (count + 1)

theorem newline_notMem_cacheOutput (cfg : Config) {c : Cache} (htmux : newline ∉ c.tmuxOutputPrefix)
    (hlines : ∀ l ∈ c.cacheLines, IsLine l) :
    newline ∉ (cacheOutput cfg c buf).tmuxOutputPrefix := by
  have hall := fun l hl => (cacheAll_isLine buf hlines l hl).newline
  unfold cacheOutput dropOldest
  split
  · show newline ∉ if c.discardLines = 0 then _ else c.tmuxOutputPrefix
    split
    · exact newline_notMem_extractLoop _ _ hall
    · exact htmux
  · exact htmux

end Output
