import Tssh.Output.Cache
import Mathlib.Algebra.Order.Group.Multiset

/-! # What the Client Is Owed

    The abstract side of `forwardOutput`: how the output of the program may differ
    from what the client is given.  Bytes are passed on unchanged and in order,
    with three exceptions:

    * a cache line that is **flushed** loses its cursor position requests,
    * a cache line may be **dropped** as a whole,
    * a **warning** with the number of lines and bytes stands where lines were
      dropped.

    `Delivered` says this of the bytes given to the client, `Dropped` of the lines
    no warning has reported yet and `Passed` of the bytes that are still kept.
    A flushed line of which nothing is left leaves no trace between the bytes
    around it, which may be cached once more; so `Passed` has to know such lines.

    A `Ledger` is the abstract state: what was taken, what waits in front, what is
    kept behind.  It is `Sound` if every byte of the input is accounted for, and
    the lemmas below are the **operations that keep it sound**.
-/

open Go Pattern

namespace Output

/-! ## Accounts -/

/-- Where a stretch of output comes from: the bytes that were read for it, and the cache
    lines that were flushed on the way. -/
@[ext] structure Origin where
  read : Bytes
  flushed : Multiset Bytes

namespace Origin

instance : Add Origin := ⟨fun a b => ⟨a.read ++ b.read, a.flushed + b.flushed⟩⟩

instance : Zero Origin := ⟨⟨[], 0⟩⟩

instance : AddMonoid Origin where
  add_assoc a b c := Origin.ext (List.append_assoc _ _ _) (add_assoc a.flushed b.flushed c.flushed)
  zero_add a := Origin.ext (List.nil_append _) (zero_add a.flushed)
  add_zero a := Origin.ext (List.append_nil _) (add_zero a.flushed)
  nsmul := nsmulRec

@[simp] theorem add_read (a b : Origin) : (a + b).read = a.read ++ b.read := rfl
@[simp] theorem add_flushed (a b : Origin) : (a + b).flushed = a.flushed + b.flushed := rfl

/-- Bytes that were read and nothing else. -/
def ofRead (b : Bytes) : Origin := ⟨b, 0⟩

/-- The flushing of a line. -/
def ofLine (l : Bytes) : Origin := ⟨[], {l}⟩

@[simp] theorem ofRead_read (b : Bytes) : (ofRead b).read = b := rfl
@[simp] theorem ofLine_read (l : Bytes) : (ofLine l).read = [] := rfl

theorem ofRead_append (x y : Bytes) : ofRead (x ++ y) = ofRead x + ofRead y :=
  Origin.ext rfl (zero_add 0).symm

/-- Flushing one more line anywhere adds it to the flushed lines. -/
theorem add_ofLine {a b : Origin} {input l : Bytes} {flushed : List Bytes}
    (h : a + b = ⟨input, flushed⟩) : a + ofLine l + b = ⟨input, ↑(flushed ++ [l])⟩ := by
  have hread : a.read ++ b.read = input := congrArg Origin.read h
  have hflushed : a.flushed + b.flushed = flushed := congrArg Origin.flushed h
  apply Origin.ext
  · simpa using hread
  · rw [← Multiset.coe_add, Multiset.coe_singleton, ← hflushed]
    exact add_right_comm a.flushed {l} b.flushed

end Origin

/-- Bytes that were read and are passed on as they are.  In between, cache lines may have
    been flushed of which the filter left nothing. -/
inductive Passed : Origin → Bytes → Prop where
  | bytes (b : Bytes) : Passed (.ofRead b) b
  | append {o o' : Origin} {x y : Bytes} : Passed o x → Passed o' y → Passed (o + o') (x ++ y)
  | gone {o : Origin} {l : Bytes} : Passed o l → removeAll esc6n l = [] →
      Passed (o + .ofLine l) []

/-- Whole cache lines that were dropped. -/
inductive Dropped : Origin → List Bytes → Prop where
  | nil : Dropped 0 []
  | concat {o o' : Origin} {ls : List Bytes} {l : Bytes} :
      Dropped o ls → Passed o' l → Dropped (o + o') (ls ++ [l])

/-- A warning of `lines` lines with `bytes` bytes, to a terminal or as a message of tmux. -/
inductive Warns (lines bytes : Nat) : Bytes → Prop where
  | plain (ending : Bytes) : Warns lines bytes
      (ascii "\r\x1b[0;33mWarning: tsshd discarded " ++ decimal lines ++ ascii " lines " ++
        decimal bytes ++
        ascii " bytes of output during client disconnection at this point!\x1b[0m\x1b[K" ++ ending)
  | tmux (tmuxPrefix : Bytes) {text : Bytes} : Warns lines bytes text →
      Warns lines bytes (encodeTmuxOutput tmuxPrefix text)

theorem warns_warningLine (lines bytes : Nat) (tmuxPrefix ending : Bytes) :
    Warns lines bytes (warningLine lines bytes tmuxPrefix ending) := by
  have hplain : Warns lines bytes (warningText lines bytes ending) := .plain ending
  unfold warningLine
  split
  · exact hplain
  · exact .tmux tmuxPrefix hplain

/-- What the client is given: bytes as they were read, flushed lines without their cursor
    position requests, and warnings in the place of dropped lines.  The lists are the dropped
    lines and the counts of the warnings. -/
inductive Delivered : Origin → List Bytes → List (Nat × Nat) → Bytes → Prop where
  | nil : Delivered 0 [] [] []
  | passed {o o' : Origin} {ls : List Bytes} {ws : List (Nat × Nat)} {x y : Bytes} :
      Delivered o ls ws x → Passed o' y → Delivered (o + o') ls ws (x ++ y)
  | line {o o' : Origin} {ls : List Bytes} {ws : List (Nat × Nat)} {x l : Bytes} :
      Delivered o ls ws x → Passed o' l →
        Delivered (o + o' + .ofLine l) ls ws (x ++ removeAll esc6n l)
  | warned {o o' : Origin} {ls gone : List Bytes} {ws : List (Nat × Nat)} {x warning : Bytes} :
      Delivered o ls ws x → Dropped o' gone → gone ≠ [] →
        Warns gone.length gone.flatten.length warning →
        Delivered (o + o') (ls ++ gone) (ws ++ [(gone.length, gone.flatten.length)])
          (x ++ warning)

/-- Kept bytes can be divided anywhere. -/
theorem Passed.split {o : Origin} {z x y : Bytes} (h : Passed o z) (hz : z = x ++ y) :
    ∃ o₁ o₂, o₁ + o₂ = o ∧ Passed o₁ x ∧ Passed o₂ y := by
  induction h generalizing x y with
  | bytes b =>
    refine ⟨.ofRead x, .ofRead y, ?_, .bytes x, .bytes y⟩
    rw [hz, Origin.ofRead_append]
  | @append o o' a b _ _ iha ihb =>
    rcases List.append_eq_append_iff.mp hz with ⟨c, hx, hb⟩ | ⟨c, ha, hy⟩
    · obtain ⟨o₁, o₂, rfl, h₁, h₂⟩ := ihb hb
      exact ⟨o + o₁, o₂, add_assoc o o₁ o₂, hx ▸ .append ‹Passed o a› h₁, h₂⟩
    · obtain ⟨o₁, o₂, rfl, h₁, h₂⟩ := iha ha
      exact ⟨o₁, o₂ + o', (add_assoc o₁ o₂ o').symm, h₁, hy ▸ .append h₂ ‹Passed o' b›⟩
  | gone h hl =>
    obtain ⟨rfl, rfl⟩ := List.append_eq_nil_iff.mp hz.symm
    exact ⟨_, 0, add_zero _, .gone h hl, .bytes []⟩

/-- Kept bytes can be dropped line by line. -/
theorem Dropped.append {o o' : Origin} {ls gone : List Bytes} {z rest : Bytes}
    (h : Dropped o ls) (hz : Passed o' z) (heq : z = gone.flatten ++ rest) :
    ∃ o₁ o₂, o₁ + o₂ = o + o' ∧ Dropped o₁ (ls ++ gone) ∧ Passed o₂ rest := by
  induction gone generalizing o o' ls z with
  | nil => exact ⟨o, o', rfl, by simpa using h, by simpa [heq] using hz⟩
  | cons l gone ih =>
    rw [List.flatten_cons, List.append_assoc] at heq
    obtain ⟨o₁, o₂, rfl, h₁, h₂⟩ := hz.split heq
    obtain ⟨p₁, p₂, hp, hd, hr⟩ := ih (h.concat h₁) h₂ rfl
    exact ⟨p₁, p₂, hp.trans (add_assoc o o₁ o₂), by simpa using hd, hr⟩

theorem Dropped.eq_zero {o : Origin} (h : Dropped o []) : o = 0 := by
  generalize hls : ([] : List Bytes) = ls at h
  cases h with
  | nil => rfl
  | concat => simp at hls

/-- The counts of the warnings are those of the dropped lines. -/
theorem Delivered.counts {o : Origin} {ls : List Bytes} {ws : List (Nat × Nat)} {x : Bytes}
    (h : Delivered o ls ws x) :
    (ws.map Prod.fst).sum = ls.length ∧ (ws.map Prod.snd).sum = ls.flatten.length := by
  induction h with
  | nil => exact ⟨rfl, rfl⟩
  | passed _ _ ih => exact ih
  | line _ _ ih => exact ih
  | warned _ _ _ _ ih =>
    simp only [List.map_append, List.sum_append, ih.1, ih.2, List.flatten_append,
      List.length_append]
    simp

/-! ## Ledgers -/

/-- The output at one moment: what was taken by the writer, what waits in front of it in the
    channel, the dropped lines that no warning has reported, and the bytes kept behind; then
    the history this has to agree with. -/
structure Ledger where
  taken : Bytes
  front : Bytes
  unreported : List Bytes
  back : Bytes
  input : Bytes
  flushed : List Bytes
  dropped : List Bytes
  reported : List (Nat × Nat)

/-- One way to account for a ledger.  The front is a piece `piece` that stays whole, a flushed
    line or a warning, and bytes `tail` that may be called back. -/
structure Ledger.Account (L : Ledger) (piece tail : Bytes) (ls : List Bytes) (o₁ o₂ o₃ o₄ : Origin) :
    Prop where
  front : L.front = piece ++ tail
  whole : NewlineOnlyLast piece
  open_end : tail ≠ [] → newline ∉ piece
  delivered : Delivered o₁ ls L.reported (L.taken ++ piece)
  waiting : Passed o₂ tail
  lost : Dropped o₃ L.unreported
  kept : Passed o₄ L.back
  dropped : ls ++ L.unreported = L.dropped
  total : o₁ + o₂ + o₃ + o₄ = ⟨L.input, L.flushed⟩

/-- Every byte of the input is accounted for. -/
def Ledger.Sound (L : Ledger) : Prop :=
  ∃ piece tail ls o₁ o₂ o₃ o₄, L.Account piece tail ls o₁ o₂ o₃ o₄

namespace Ledger.Sound

variable {L : Ledger}

theorem start : Sound ⟨[], [], [], [], [], [], [], []⟩ :=
  ⟨[], [], [], 0, 0, 0, 0, rfl, by decide, by simp, .nil, .bytes [], .nil, .bytes [], rfl, rfl⟩

variable (h : L.Sound)
include h

/-- The program writes `b`. -/
theorem read (b : Bytes) : Sound { L with back := L.back ++ b, input := L.input ++ b } := by
  obtain ⟨piece, tail, ls, o₁, o₂, o₃, o₄, a⟩ := h
  refine ⟨piece, tail, ls, o₁, o₂, o₃, o₄ + .ofRead b, a.front, a.whole, a.open_end, a.delivered,
    a.waiting, a.lost, .append a.kept (.bytes b), a.dropped, ?_⟩
  rw [← add_assoc, a.total]
  exact Origin.ext rfl (add_zero _)

/-- The writer takes what waits. -/
theorem take : Sound { L with taken := L.taken ++ L.front, front := [] } := by
  obtain ⟨piece, tail, ls, o₁, o₂, o₃, o₄, a⟩ := h
  refine ⟨[], [], ls, o₁ + o₂, 0, o₃, o₄, rfl, by decide, by simp, ?_, .bytes [], a.lost, a.kept,
    a.dropped, ?_⟩
  · simpa [a.front] using a.delivered.passed a.waiting
  · rw [add_zero, a.total]

/-- Bytes kept behind join what waits in front, which has no newline. -/
theorem extend (hu : L.unreported = []) (hfront : newline ∉ L.front) {b rest : Bytes}
    (hb : L.back = b ++ rest) : Sound { L with front := L.front ++ b, back := rest } := by
  obtain ⟨piece, tail, ls, o₁, o₂, o₃, o₄, a⟩ := h
  obtain ⟨p, q, rfl, hp, hq⟩ := a.kept.split hb
  have hzero : o₃ = 0 := (hu ▸ a.lost).eq_zero
  have hpiece : newline ∉ piece := fun hm => hfront (by simp [a.front, hm])
  refine ⟨piece, tail ++ b, ls, o₁, o₂ + p, o₃, q, ?_, a.whole, fun _ => hpiece, a.delivered,
    .append a.waiting hp, a.lost, hq, a.dropped, ?_⟩
  · show L.front ++ b = _
    rw [a.front, List.append_assoc]
  · rw [← a.total, hzero]
    simp only [add_zero, add_assoc]

/-- The bytes behind the first newline of the front are called back. -/
theorem call_back (hu : L.unreported = []) {x y : Bytes} (hfront : L.front = x ++ newline :: y) :
    Sound { L with front := x ++ [newline], back := y ++ L.back } := by
  obtain ⟨piece, tail, ls, o₁, o₂, o₃, o₄, a⟩ := h
  have hzero : o₃ = 0 := (hu ▸ a.lost).eq_zero
  by_cases hpiece : newline ∈ piece
  · -- the newline ends the piece, and nothing is behind it
    have htail : tail = [] := by
      by_contra htail
      exact a.open_end htail hpiece
    have hwhole : piece = x ++ newline :: y := by
      rw [← hfront, a.front, htail, List.append_nil]
    have hy : y = [] := a.whole.eq_of_append hwhole
    refine ⟨piece, tail, ls, o₁, o₂, o₃, o₄, ?_, a.whole, a.open_end, a.delivered, a.waiting,
      a.lost, ?_, a.dropped, a.total⟩
    · rw [htail, List.append_nil, hwhole, hy]
    · rw [hy]
      exact a.kept
  · -- the newline is among the bytes that can be divided
    obtain ⟨t, hxt, htail⟩ : ∃ t, x = piece ++ t ∧ tail = t ++ newline :: y := by
      rcases List.append_eq_append_iff.mp (a.front.symm.trans hfront) with ⟨t, hxt, ht⟩ | ⟨t, hp, ht⟩
      · exact ⟨t, hxt, ht⟩
      · match t, ht with
        | [], ht => exact ⟨[], by simpa using hp.symm, by simpa using ht.symm⟩
        | b :: t, ht =>
          obtain ⟨rfl, -⟩ := List.cons.inj ht
          exact absurd (hp ▸ List.mem_append_right x List.mem_cons_self) hpiece
    have hsplit : tail = (t ++ [newline]) ++ y := by rw [htail]; simp
    obtain ⟨p, q, rfl, hp, hq⟩ := a.waiting.split hsplit
    refine ⟨piece, t ++ [newline], ls, o₁, p, o₃, q + o₄, ?_, a.whole, fun _ => hpiece,
      a.delivered, hp, a.lost, .append hq a.kept, a.dropped, ?_⟩
    · rw [hxt, List.append_assoc]
    · rw [← a.total, hzero]
      simp only [add_zero, add_assoc]

/-- The oldest lines kept behind are dropped. -/
theorem drop {gone : List Bytes} {rest : Bytes} (hb : L.back = gone.flatten ++ rest) :
    Sound { L with unreported := L.unreported ++ gone, back := rest,
                   dropped := L.dropped ++ gone } := by
  obtain ⟨piece, tail, ls, o₁, o₂, o₃, o₄, a⟩ := h
  obtain ⟨p, q, hpq, hp, hq⟩ := a.lost.append a.kept hb
  refine ⟨piece, tail, ls, o₁, o₂, p, q, a.front, a.whole, a.open_end, a.delivered, a.waiting, hp,
    hq, ?_, ?_⟩
  · show ls ++ (L.unreported ++ gone) = _
    rw [← List.append_assoc, a.dropped]
  · rw [add_assoc, hpq, ← add_assoc, a.total]

/-- A warning reports the dropped lines. -/
theorem warn (hfront : L.front = []) (hu : L.unreported ≠ []) {tmuxPrefix ending : Bytes}
    (htmux : newline ∉ tmuxPrefix) (hending : NewlineOnlyLast ending) :
    Sound { L with
      front := warningLine L.unreported.length L.unreported.flatten.length tmuxPrefix ending
      unreported := []
      reported := L.reported ++ [(L.unreported.length, L.unreported.flatten.length)] } := by
  obtain ⟨piece, tail, ls, o₁, o₂, o₃, o₄, a⟩ := h
  obtain ⟨rfl, rfl⟩ := List.append_eq_nil_iff.mp (a.front.symm.trans hfront)
  have hd := (a.delivered.passed a.waiting).warned a.lost hu
    (warns_warningLine _ _ tmuxPrefix ending)
  refine ⟨_, [], ls ++ L.unreported, o₁ + o₂ + o₃, 0, 0, o₄, (List.append_nil _).symm,
    warningLine_newlineOnlyLast _ _ htmux hending, by simp, ?_, .bytes [], .nil, a.kept, ?_, ?_⟩
  · simpa using hd
  · simpa using a.dropped
  · simpa using a.total

/-- The oldest line kept behind is flushed. -/
theorem flush (hfront : L.front = []) (hu : L.unreported = []) {line rest : Bytes}
    (hline : NewlineOnlyLast line) (hb : L.back = line ++ rest) :
    Sound { L with front := filterLine line, back := rest, flushed := L.flushed ++ [line] } := by
  obtain ⟨piece, tail, ls, o₁, o₂, o₃, o₄, a⟩ := h
  obtain ⟨rfl, rfl⟩ := List.append_eq_nil_iff.mp (a.front.symm.trans hfront)
  obtain ⟨p, q, rfl, hp, hq⟩ := a.kept.split hb
  have hzero : o₃ = 0 := (hu ▸ a.lost).eq_zero
  have hd := (a.delivered.passed a.waiting).line hp
  refine ⟨filterLine line, [], ls, o₁ + o₂ + p + .ofLine line, 0, o₃, q, (List.append_nil _).symm,
    filterLine_newlineOnlyLast hline, by simp, ?_, .bytes [], a.lost, hq, a.dropped, ?_⟩
  · simpa [filterLine] using hd
  · rw [hzero, add_zero, add_zero]
    apply Origin.add_ofLine
    rw [← a.total, hzero, add_zero, add_assoc]

/-- The oldest line kept behind is flushed, and nothing is left of it. -/
theorem flush_gone (hu : L.unreported = []) {line rest : Bytes} (hgone : filterLine line = [])
    (hb : L.back = line ++ rest) :
    Sound { L with back := rest, flushed := L.flushed ++ [line] } := by
  obtain ⟨piece, tail, ls, o₁, o₂, o₃, o₄, a⟩ := h
  obtain ⟨p, q, rfl, hp, hq⟩ := a.kept.split hb
  have hzero : o₃ = 0 := (hu ▸ a.lost).eq_zero
  have hw : Passed (o₂ + (p + .ofLine line)) tail := by
    simpa using a.waiting.append (hp.gone hgone)
  refine ⟨piece, tail, ls, o₁, o₂ + (p + .ofLine line), o₃, q, a.front, a.whole, a.open_end,
    a.delivered, hw, a.lost, hq, a.dropped, ?_⟩
  rw [hzero, add_zero, ← add_assoc, ← add_assoc]
  apply Origin.add_ofLine
  rw [← a.total, hzero, add_zero, add_assoc]

/-- What a sound ledger says about the output as a whole. -/
theorem accounts :
    ∃ ls o₁ o₂ o₃, Delivered o₁ ls L.reported (L.taken ++ L.front) ∧ Dropped o₂ L.unreported ∧
      Passed o₃ L.back ∧ ls ++ L.unreported = L.dropped ∧ o₁ + o₂ + o₃ = ⟨L.input, L.flushed⟩ := by
  obtain ⟨piece, tail, ls, o₁, o₂, o₃, o₄, a⟩ := h
  refine ⟨ls, o₁ + o₂, o₃, o₄, ?_, a.lost, a.kept, a.dropped, a.total⟩
  rw [a.front, ← List.append_assoc]
  exact a.delivered.passed a.waiting

end Ledger.Sound

end Output
