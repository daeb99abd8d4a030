import Tssh.Session.Markers

/-! # Marker Bytes and the Program

    No byte of a discard marker should reach the `stdin` of a program.  The server removes
    the marker from the input only if the session waits for exactly this marker, so the
    session and the client object must agree on which marker is in the stream.

    The invariant follows the input of a session on its way: the bytes in `discardedBuffer`,
    in the hands of `forwardInput` and in the stream of the object.

    * A session without a marker has only user input on the way, and its object holds none.
    * A session that waits for marker `m` has at most one copy of `m` on the way, with
      nothing but user input behind it.

    It breaks where the two ends are out of step; `InStep` names these steps, and
    `stdin_without_markers` says that no marker reaches a program in the other runs.
-/

open Go LTS Pending

namespace Markers

/-! ## Cells -/

/-- Only input of the user. -/
def UserOnly (cells : Cells) : Prop := ∀ c ∈ cells, c.tag = none

/-- No byte of marker `n`. -/
def Free (n : Nat) (cells : Cells) : Prop := ∀ c ∈ cells, c.tag ≠ some n

/-- At most one copy of marker `n`, with only user input behind it. -/
def Single (n : Nat) (cells : Cells) : Prop :=
  cells.Pairwise (fun a b => a.tag = some n → b.tag = some n ∨ b.tag = none) ∧
    cells.countP (fun c => c.tag == some n) ≤ 8

variable {n : Nat} {a b cells : Cells} {m : Marker}

theorem UserOnly.append (ha : UserOnly a) (hb : UserOnly b) : UserOnly (a ++ b) :=
  List.forall_mem_append.mpr ⟨ha, hb⟩

theorem UserOnly.sublist (h : UserOnly a) (hsub : b.Sublist a) : UserOnly b :=
  fun c hc => h c (hsub.subset hc)

theorem UserOnly.free (h : UserOnly a) : Free n a := by
  intro c hc htag
  rw [h c hc] at htag
  cases htag

theorem userOnly_nil : UserOnly [] := fun _ hc => absurd hc List.not_mem_nil

theorem userOnly_userCells (buf : Bytes) : UserOnly (userCells buf) := fun _ hc => tag_userCells hc

theorem Free.append (ha : Free n a) (hb : Free n b) : Free n (a ++ b) :=
  List.forall_mem_append.mpr ⟨ha, hb⟩

theorem Free.sublist (h : Free n a) (hsub : b.Sublist a) : Free n b :=
  fun c hc => h c (hsub.subset hc)

theorem free_markerCells (hne : m.no ≠ n) : Free n (markerCells m) := by
  intro c hc htag
  rw [tag_markerCells hc] at htag
  exact hne (Option.some.inj htag)

theorem Free.countP_eq_zero (h : Free n a) : a.countP (fun c => c.tag == some n) = 0 := by
  rw [List.countP_eq_zero]
  intro c hc
  simpa using h c hc

theorem Free.single (h : Free n a) : Single n a := by
  constructor
  · apply List.Pairwise.imp_of_mem _ (List.pairwise_of_forall fun _ _ => trivial)
    intro c d hc _ _ htag
    exact absurd htag (h c hc)
  · rw [h.countP_eq_zero]
    exact Nat.zero_le 8

theorem Single.sublist (h : Single n a) (hsub : b.Sublist a) : Single n b :=
  ⟨h.1.sublist hsub, Nat.le_trans hsub.countP_le h.2⟩

theorem Single.append_user (h : Single n a) (hb : UserOnly b) : Single n (a ++ b) := by
  constructor
  · rw [List.pairwise_append]
    refine ⟨h.1, hb.free.single.1, ?_⟩
    exact fun c _ d hd _ => .inr (hb d hd)
  · rw [List.countP_append, hb.free.countP_eq_zero]
    exact h.2

/-- A copy of the marker where there was none. -/
theorem Free.append_marker (h : Free m.no a) : Single m.no (a ++ markerCells m) := by
  constructor
  · rw [List.pairwise_append]
    refine ⟨h.single.1, ?_, ?_⟩
    · apply List.Pairwise.imp_of_mem _ (List.pairwise_of_forall fun _ _ => trivial)
      intro c d _ hd _ _
      exact .inl (tag_markerCells hd)
    · exact fun c hc d _ htag => absurd htag (h c hc)
  · rw [List.countP_append, h.countP_eq_zero, Nat.zero_add]
    exact Nat.le_trans List.countP_le_length (Nat.le_of_eq (length_markerCells m))

/-- **What follows a complete copy of the marker is user input.** -/
theorem Single.behind {window rest : Cells} (h : Single n (a ++ (window ++ rest)))
    (hlen : window.length = 8) (hwindow : ∀ c ∈ window, c.tag = some n) : UserOnly rest := by
  -- the copy uses up all eight bytes, and it stands in front of the rest
  have hcount : window.countP (fun c => c.tag == some n) = 8 := by
    rw [← hlen, List.countP_eq_length]
    intro c hc
    simpa using hwindow c hc
  have hnone : rest.countP (fun c => c.tag == some n) = 0 := by
    have htotal := h.2
    rw [List.countP_append, List.countP_append, hcount] at htotal
    omega
  obtain ⟨w, hw⟩ := List.exists_mem_of_length_pos (by omega : 0 < window.length)
  have hpair := (List.pairwise_append.mp (List.pairwise_append.mp h.1).2.1).2.2
  intro c hc
  rcases hpair w hw c hc (hwindow w hw) with htag | htag
  · have hzero := List.countP_eq_zero.mp hnone c hc
    simp [htag] at hzero
  · exact htag

/-! ## One session and its object -/

/-- An attached session and its object are in step. -/
def AttachedOk (c : Session) (o : Object) : Prop :=
  match c.input.discardMarker with
  | none => UserOnly (c.reader.buf ++ o.stream) ∧ o.discardMarker = none
  | some m => Single m.no (c.way o) ∧ (o.discardMarker ≠ none → Free m.no (c.way o))

/-- A detached session: input that still goes to the program is the user's, and a marker it
    was given while detached is newer than its buffer. -/
def DetachedOk (c : Session) : Prop :=
  (∀ buf, c.reader = .loaded buf → UserOnly buf) ∧
    ∀ m, c.input.discardMarker = some m → Free m.no c.input.discardedBuffer

structure SessionOk (c : Session) (o : Object) : Prop where
  attached : c.server ≠ none → AttachedOk c o
  detached : c.server = none → DetachedOk c
  stdin : UserOnly c.input.stdin

variable {c : Session} {o o' : Object} {buf : Cells} {j k : Nat}

/-- Without a marker. -/
theorem attachedOk_none (hm : c.input.discardMarker = none) :
    AttachedOk c o ↔ UserOnly (c.reader.buf ++ o.stream) ∧ o.discardMarker = none := by
  unfold AttachedOk
  rw [hm]

/-- While it waits for a marker. -/
theorem attachedOk_some (hm : c.input.discardMarker = some m) :
    AttachedOk c o ↔
      Single m.no (c.way o) ∧ (o.discardMarker ≠ none → Free m.no (c.way o)) := by
  unfold AttachedOk
  rw [hm]

/-- Only the marker and the input on the way matter. -/
theorem AttachedOk.of_sublist {c' : Session} (h : AttachedOk c o)
    (hmarker : c'.input.discardMarker = c.input.discardMarker)
    (hbuffer : c'.input.discardedBuffer = c.input.discardedBuffer)
    (hsub : (c'.reader.buf ++ o'.stream).Sublist (c.reader.buf ++ o.stream))
    (hobject : o'.discardMarker = none ∨ o'.discardMarker = o.discardMarker) :
    AttachedOk c' o' := by
  have hway : (c'.way o').Sublist (c.way o) := by
    unfold Session.way
    rw [hbuffer]
    exact List.Sublist.append (List.Sublist.refl _) hsub
  cases hm : c.input.discardMarker with
  | none =>
    rw [attachedOk_none hm] at h
    rw [attachedOk_none (hmarker.trans hm)]
    exact ⟨h.1.sublist hsub, hobject.elim id (fun heq => heq.trans h.2)⟩
  | some m =>
    rw [attachedOk_some hm] at h
    rw [attachedOk_some (hmarker.trans hm)]
    refine ⟨h.1.sublist hway, ?_⟩
    intro hne
    have heq := hobject.resolve_left hne
    exact (h.2 (heq ▸ hne)).sublist hway

section

variable (h : SessionOk c o)
include h

/-- Input is taken out of the stream of the object. -/
theorem SessionOk.drop (n : Nat) : SessionOk c { o with stream := o.stream.drop n } := by
  refine ⟨?_, h.detached, h.stdin⟩
  intro hserver
  refine (h.attached hserver).of_sublist rfl rfl ?_ (.inr rfl)
  exact List.Sublist.append (List.Sublist.refl _) (List.drop_sublist n _)

/-- `forwardInput` reads. -/
theorem SessionOk.read (hr : c.reader = .idle) (n : Nat) :
    SessionOk { c with reader := .got (o.stream.take n) } { o with stream := o.stream.drop n } := by
  refine ⟨?_, ?_, h.stdin⟩
  · intro hserver
    refine (h.attached hserver).of_sublist rfl rfl ?_ (.inr rfl)
    simp only [Reader.buf, hr, List.take_append_drop, List.nil_append]
    exact List.Sublist.refl _
  · intro hserver
    refine ⟨?_, (h.detached hserver).2⟩
    intro buf hbuf
    cases hbuf

/-- `forwardInput` loads the server pointer. -/
theorem SessionOk.loadServer (hr : c.reader = .got buf) :
    SessionOk { c with reader := if c.server = none then .idle else .loaded buf } o := by
  refine ⟨?_, ?_, h.stdin⟩
  · intro hserver
    have hserver' : c.server ≠ none := hserver
    refine (h.attached hserver').of_sublist rfl rfl ?_ (.inr rfl)
    simp only [if_neg hserver', hr, Reader.buf]
    exact List.Sublist.refl _
  · intro hserver
    have hserver' : c.server = none := hserver
    refine ⟨?_, (h.detached hserver').2⟩
    intro buf' hbuf'
    simp only [if_pos hserver'] at hbuf'
    cases hbuf'

/-- The reader moves on without touching the input. -/
theorem SessionOk.setReader {r : Reader} (connected : Bool) (hbuf : r.buf = c.reader.buf)
    (hnot : ∀ buf, r ≠ .loaded buf) :
    SessionOk { c with reader := r, connected := connected } o := by
  refine ⟨?_, ?_, h.stdin⟩
  · intro hserver
    refine (h.attached hserver).of_sublist rfl rfl ?_ (.inr rfl)
    rw [hbuf]
  · intro hserver
    exact ⟨fun buf hr => absurd hr (hnot buf), (h.detached hserver).2⟩

/-- An object that has sent nothing and holds no marker is in step with any session. -/
theorem SessionOk.fresh (hstream : o'.stream = []) (hmarker : o'.discardMarker = none) :
    SessionOk c o' := by
  refine ⟨?_, h.detached, h.stdin⟩
  intro hserver
  refine (h.attached hserver).of_sublist rfl rfl ?_ (.inl hmarker)
  rw [hstream]
  exact List.Sublist.append (List.Sublist.refl _) (List.nil_sublist _)

/-- The client sends input, after its marker if it holds one. -/
theorem SessionOk.input (buf : Bytes) :
    SessionOk c
      { o with discardMarker := none
               stream := o.stream ++ ((match o.discardMarker with
                 | some m => markerCells m
                 | none => []) ++ userCells buf) } := by
  refine ⟨?_, h.detached, h.stdin⟩
  intro hserver
  have hok := h.attached hserver
  have huser := userOnly_userCells buf
  cases hm : c.input.discardMarker with
  | none =>
    rw [attachedOk_none hm] at hok ⊢
    rw [hok.2]
    refine ⟨?_, rfl⟩
    simpa [List.append_assoc] using hok.1.append huser
  | some m =>
    rw [attachedOk_some hm] at hok ⊢
    refine ⟨?_, fun hne => absurd rfl hne⟩
    cases ho : o.discardMarker with
    | none =>
      simpa [Session.way, List.append_assoc] using hok.1.append_user huser
    | some m' =>
      -- the object holds a marker, so `m` is not on the way yet
      have hfree := hok.2 (by rw [ho]; exact Option.some_ne_none m')
      have hmarked : Single m.no (c.way o ++ markerCells m') := by
        by_cases hno : m'.no = m.no
        · rw [← hno] at hfree ⊢
          exact hfree.append_marker
        · exact (hfree.append (free_markerCells hno)).single
      simpa [Session.way, List.append_assoc] using hmarked.append_user huser

end

/-- The input around the marker that `forwardInput` has found. -/
theorem split_at_marker {pos : Nat} (h : Pattern.indexOf m.bytes (cells.map (·.byte)) = some pos) :
    cells = cells.take pos ++ ((cells.drop pos).take 8 ++ cells.drop (pos + m.bytes.length)) ∧
      ((cells.drop pos).take 8).length = 8 := by
  have hlen := (Pattern.indexOf_eq_some h).length_le
  rw [Marker.length_bytes, List.length_drop, List.length_map] at hlen
  constructor
  · rw [Marker.length_bytes, ← List.drop_drop, List.take_append_drop, List.take_append_drop]
  · rw [List.length_take, List.length_drop]
    omega

/-- The marker that is found is the session's own: its bytes, and not bytes of other markers
    or of the user that happen to look like it. -/
def Session.FindsOwn (c : Session) (buf : Cells) : Prop :=
  match c.input.discardMarker with
  | none => True
  | some m =>
    match Pattern.indexOf m.bytes ((c.input.discardedBuffer ++ buf).map (·.byte)) with
    | none => True
    | some pos =>
      ∀ cell ∈ ((c.input.discardedBuffer ++ buf).drop pos).take 8, cell.tag = some m.no

section

variable (h : SessionOk c o)
include h

/-- A detached session does not find its marker; an attached one has only user input behind
    it, and its object holds no marker any more. -/
theorem SessionOk.found (hr : c.reader = .loaded buf) (hown : c.FindsOwn buf) {pos : Nat}
    (hm : c.input.discardMarker = some m)
    (hpos : Pattern.indexOf m.bytes ((c.input.discardedBuffer ++ buf).map (·.byte)) = some pos) :
    c.server ≠ none ∧ o.discardMarker = none ∧
      UserOnly ((c.input.discardedBuffer ++ buf).drop (pos + m.bytes.length) ++ o.stream) := by
  obtain ⟨hsplit, hlen⟩ := split_at_marker hpos
  have hwindow : ∀ cell ∈ ((c.input.discardedBuffer ++ buf).drop pos).take 8,
      cell.tag = some m.no := by
    simpa only [Session.FindsOwn, hm, hpos] using hown
  obtain ⟨w, hw⟩ := List.exists_mem_of_length_pos (by omega :
    0 < (((c.input.discardedBuffer ++ buf).drop pos).take 8).length)
  have hmem : w ∈ c.input.discardedBuffer ++ buf := List.mem_of_mem_drop (List.mem_of_mem_take hw)
  have hattached : c.server ≠ none := by
    intro hserver
    obtain ⟨huser, hbuffer⟩ := h.detached hserver
    exact (hbuffer m hm).append (huser buf hr).free w hmem (hwindow w hw)
  have hok := (attachedOk_some hm).mp (h.attached hattached)
  have hway : c.way o = (c.input.discardedBuffer ++ buf) ++ o.stream := by
    rw [Session.way, hr, Reader.buf, List.append_assoc]
  refine ⟨hattached, ?_, ?_⟩
  · by_contra hne
    have hfree := hok.2 hne
    rw [hway] at hfree
    exact hfree w (List.mem_append_left _ hmem) (hwindow w hw)
  · have hsingle := hok.1
    rw [hway, hsplit, List.append_assoc, List.append_assoc] at hsingle
    exact hsingle.behind hlen hwindow

/-- Input that is kept in the buffer. -/
theorem SessionOk.kept (hr : c.reader = .loaded buf) (hm : c.input.discardMarker = some m)
    (ok : Bool) :
    SessionOk { c with input := { c.input with
                         discardedBuffer := c.input.discardedBuffer ++ buf }
                       reader := if ok then .idle else .stopped } o := by
  refine ⟨?_, ?_, h.stdin⟩
  · intro hserver
    have hok := (attachedOk_some hm).mp (h.attached hserver)
    refine (attachedOk_some (by exact hm)).mpr ?_
    rw [Session.way, hr, Reader.buf] at hok
    simpa only [Session.way, Reader.buf_after, List.nil_append, List.append_assoc] using hok
  · intro hserver
    obtain ⟨huser, hbuffer⟩ := h.detached hserver
    refine ⟨?_, ?_⟩
    · intro b hb
      cases ok <;> cases hb
    · intro m' hm'
      exact (hbuffer m' hm').append (huser buf hr).free

/-- **A round of `forwardInput`** writes only user input to the program. -/
theorem SessionOk.forward (hr : c.reader = .loaded buf) (hown : c.FindsOwn buf) (accepts : Nat) :
    SessionOk { c with input := (forwardInput c.input buf accepts).1
                       reader := if (forwardInput c.input buf accepts).2.2 then .idle
                         else .stopped } o := by
  have hnot : ∀ (ok : Bool) (b : Cells), (if ok then Reader.idle else Reader.stopped) ≠ .loaded b := by
    intro ok b
    cases ok <;> exact Reader.noConfusion
  rcases forwardInput_cases c.input buf accepts with
    ⟨hm, ok, hf⟩ | ⟨m, hm, ⟨_, hf⟩ | ⟨pos, hpos, ⟨n, hf⟩ | hf⟩⟩
  · -- no marker: the input goes to the program
    rw [hf]
    have huser : UserOnly buf := by
      by_cases hserver : c.server = none
      · exact (h.detached hserver).1 buf hr
      · have hok := ((attachedOk_none hm).mp (h.attached hserver)).1
        rw [hr, Reader.buf] at hok
        exact hok.sublist (List.sublist_append_left _ _)
    refine ⟨?_, ?_, h.stdin.append (huser.sublist (List.take_sublist _ _))⟩
    · intro hserver
      refine (h.attached hserver).of_sublist rfl rfl ?_ (.inr rfl)
      simp only [Reader.buf_after]
      exact List.sublist_append_right _ _
    · intro hserver
      exact ⟨fun b hb => absurd hb (hnot ok b), (h.detached hserver).2⟩
  · -- the input is kept
    rw [hf]
    exact h.kept hr hm true
  · -- the marker is found, and the write fails
    rw [hf]
    obtain ⟨hserver, _, huser⟩ := h.found hr hown hm hpos
    have hkept := h.kept hr hm false
    refine ⟨hkept.attached, hkept.detached, h.stdin.append (huser.sublist ?_)⟩
    exact (List.take_sublist _ _).trans (List.sublist_append_left _ _)
  · -- the marker is found, and what follows it goes to the program
    rw [hf]
    obtain ⟨hserver, hobject, huser⟩ := h.found hr hown hm hpos
    refine ⟨?_, fun hnone => absurd hnone hserver, ?_⟩
    · intro _
      rw [attachedOk_none rfl]
      exact ⟨huser.sublist (List.sublist_append_right _ _), hobject⟩
    · exact h.stdin.append (huser.sublist (List.sublist_append_left _ _))

/-- The session is detached, and what still goes to the program is user input. -/
theorem SessionOk.detach (huser : ∀ buf, c.reader = .loaded buf → UserOnly buf) :
    SessionOk c.detach o := by
  refine ⟨fun hserver => absurd rfl hserver, ?_, h.stdin⟩
  intro _
  exact ⟨huser, fun m hm => absurd hm (Option.some_ne_none m).symm⟩

/-- The server sets a marker that is nowhere yet. -/
theorem SessionOk.mark (hfree : Free m.no (c.way o)) :
    SessionOk { c with input := { c.input with discardMarker := some m } } o := by
  refine ⟨?_, ?_, h.stdin⟩
  · intro _
    rw [attachedOk_some rfl]
    exact ⟨hfree.single, fun _ => hfree⟩
  · intro hserver
    refine ⟨(h.detached hserver).1, ?_⟩
    intro m' hm'
    obtain rfl := Option.some.inj hm'
    exact hfree.sublist (List.sublist_append_left _ _)

/-- The client stores a marker in the object while the session waits for one that is not on
    the way. -/
theorem SessionOk.store (m' : Marker)
    (hwaits : c.server ≠ none → ∃ m, c.input.discardMarker = some m ∧ Free m.no (c.way o)) :
    SessionOk c { o with discardMarker := some m' } := by
  refine ⟨?_, h.detached, h.stdin⟩
  intro hserver
  obtain ⟨m, hm, hfree⟩ := hwaits hserver
  rw [attachedOk_some hm]
  exact ⟨hfree.single, fun _ => hfree⟩

/-- A detached session is attached to an object that has sent nothing and holds no marker. -/
theorem SessionOk.attach (hserver : c.server = none) (hbuf : UserOnly c.reader.buf)
    (hstream : o'.stream = []) (hmarker : o'.discardMarker = none) (k j : Nat) :
    SessionOk { c with server := some k, object := j, connected := true } o' := by
  obtain ⟨_, hbuffer⟩ := h.detached hserver
  refine ⟨?_, fun hnone => absurd hnone (Option.some_ne_none k), h.stdin⟩
  intro _
  cases hm : c.input.discardMarker with
  | none =>
    refine (attachedOk_none hm).mpr ⟨?_, hmarker⟩
    rw [hstream, List.append_nil]
    exact hbuf
  | some m =>
    have hfree : Free m.no (c.input.discardedBuffer ++ (c.reader.buf ++ o'.stream)) := by
      rw [hstream, List.append_nil]
      exact (hbuffer m hm).append hbuf.free
    exact (attachedOk_some hm).mpr ⟨hfree.single, fun _ => hfree⟩

end

/-- A new session. -/
theorem SessionOk.create {id k j : Nat} (hstream : o.stream = []) (hmarker : o.discardMarker = none) :
    SessionOk ⟨id, some k, j, false, false, .starting, ⟨none, [], []⟩⟩ o := by
  refine ⟨?_, fun hnone => absurd hnone (Option.some_ne_none k), userOnly_nil⟩
  intro _
  rw [attachedOk_none rfl, hstream]
  exact ⟨userOnly_nil, hmarker⟩

/-! ## Marker numbers

    A marker that is not delivered yet is nowhere: no object holds it, and no byte of it is in
    a stream or a buffer. -/

/-- The numbers of the markers that are still to be sent or under way. -/
def State.undelivered (s : State) : List Nat :=
  s.outbox.map (·.2.no) ++ s.bus.filterMap (fun e => e.2.marker.map (·.no))

/-- The object holds the marker, or bytes of it are in its stream. -/
def Object.Uses (o : Object) (n : Nat) : Prop :=
  (∃ m, o.discardMarker = some m ∧ m.no = n) ∨ ∃ c ∈ o.stream, c.tag = some n

/-- Bytes of the marker are in the buffer of the session or in the hands of its reader. -/
def Session.Uses (c : Session) (n : Nat) : Prop :=
  ∃ cell ∈ c.input.discardedBuffer ++ c.reader.buf, cell.tag = some n

def State.Uses (s : State) (n : Nat) : Prop :=
  (∃ j, (s.objects j).Uses n) ∨ ∃ x, (s.sessions x).Uses n

structure Numbers (s : State) : Prop where
  bounded : ∀ n ∈ s.undelivered, n < s.count
  nodup : s.undelivered.Nodup
  delivered : ∀ n, s.Uses n → n < s.count ∧ n ∉ s.undelivered

variable {s s' : State}

theorem start_numbers : Numbers start where
  bounded := fun _ h => absurd h List.not_mem_nil
  nodup := List.nodup_nil
  delivered := by
    rintro n (⟨j, ⟨m, hm, -⟩ | ⟨c, hc, -⟩⟩ | ⟨x, c, hc, -⟩)
    · cases hm
    · cases hc
    · cases hc

/-- A marker that is not used is not on the way to any session. -/
theorem free_of_not_uses (x j : Nat) (h : ¬ s.Uses n) : Free n ((s.sessions x).way (s.objects j)) := by
  intro c hc htag
  apply h
  rcases List.mem_append.mp hc with hc | hc
  · exact .inr ⟨x, c, List.mem_append_left _ hc, htag⟩
  · rcases List.mem_append.mp hc with hc | hc
    · exact .inr ⟨x, c, List.mem_append_right _ hc, htag⟩
    · exact .inl ⟨j, .inr ⟨c, hc, htag⟩⟩

theorem Numbers.free (h : Numbers s) (hn : n ∈ s.undelivered) (x j : Nat) :
    Free n ((s.sessions x).way (s.objects j)) := by
  apply free_of_not_uses
  intro huse
  exact (h.delivered n huse).2 hn

/-- A step that uses no new markers, after which no more are undelivered. -/
theorem Numbers.shrink (h : Numbers s) (huses : ∀ n, s'.Uses n → s.Uses n)
    (hsub : s'.undelivered.Subperm s.undelivered) (hcount : s'.count = s.count) :
    Numbers s' := by
  refine ⟨?_, ?_, ?_⟩
  · intro n hn
    rw [hcount]
    exact h.bounded n (hsub.subset hn)
  · obtain ⟨l, hperm, hl⟩ := hsub
    exact hperm.nodup_iff.mp (h.nodup.sublist hl)
  · intro n hn
    obtain ⟨hlt, hnot⟩ := h.delivered n (huses n hn)
    rw [hcount]
    exact ⟨hlt, fun hmem => hnot (hsub.subset hmem)⟩

/-- A step that uses no new markers and leaves the messages alone. -/
theorem Numbers.frame (h : Numbers s) (huses : ∀ n, s'.Uses n → s.Uses n)
    (hundelivered : s'.undelivered = s.undelivered) (hcount : s'.count = s.count) :
    Numbers s' :=
  h.shrink huses (hundelivered ▸ .refl _) hcount

theorem uses_setObject (ho : o.Uses n → s.Uses n) (h : (s.setObject j o).Uses n) : s.Uses n := by
  rcases h with ⟨i, hi⟩ | hx
  · by_cases hj : i = j
    · rw [hj, setObject_self] at hi
      exact ho hi
    · rw [setObject_ne hj] at hi
      exact .inl ⟨i, hi⟩
  · exact .inr hx

theorem uses_setSession {x : Nat} {c : Session} (hc : c.Uses n → s.Uses n)
    (h : (s.setSession x c).Uses n) : s.Uses n := by
  rcases h with hj | ⟨y, hy⟩
  · exact .inl hj
  · by_cases hxy : y = x
    · rw [hxy, setSession_self] at hy
      exact hc hy
    · rw [setSession_ne hxy] at hy
      exact .inr ⟨y, hy⟩

/-- A goroutine sends its marker. -/
theorem Numbers.send (h : Numbers s) {i k : Nat} (hi : s.outbox[i]? = some (k, m)) :
    Numbers { s with outbox := s.outbox.eraseIdx i, bus := s.bus ++ [(k, .discard m)] } := by
  have hperm : ({ s with outbox := s.outbox.eraseIdx i, bus := s.bus ++ [(k, .discard m)] } :
      State).undelivered.Perm s.undelivered := by
    obtain ⟨hlt, hget⟩ := List.getElem?_eq_some_iff.mp hi
    have hout := (List.getElem_cons_eraseIdx_perm hlt).map (fun e => e.2.no)
    rw [hget, List.map_cons] at hout
    simp only [State.undelivered, List.filterMap_append]
    calc (s.outbox.eraseIdx i).map (·.2.no) ++
          (s.bus.filterMap (fun e => e.2.marker.map (·.no)) ++ [m.no])
        = ((s.outbox.eraseIdx i).map (·.2.no) ++
          s.bus.filterMap (fun e => e.2.marker.map (·.no))) ++ [m.no] :=
          (List.append_assoc _ _ _).symm
      List.Perm _ (m.no :: ((s.outbox.eraseIdx i).map (·.2.no) ++
          s.bus.filterMap (fun e => e.2.marker.map (·.no)))) := List.perm_append_singleton _ _
      List.Perm _ (s.outbox.map (·.2.no) ++
          s.bus.filterMap (fun e => e.2.marker.map (·.no))) := hout.append_right _
  exact h.shrink (fun _ hn => hn) hperm.subperm rfl

/-- A fresh marker is set on the sessions and is to be sent. -/
theorem Numbers.reconnect (h : Numbers s) (k : Nat) : Numbers (s.enablePendingInputDiscard k) := by
  unfold State.enablePendingInputDiscard
  split
  · exact h
  · -- the new number is larger than all others
    have huses : ∀ n, (∃ j, (s.objects j).Uses n) ∨ (∃ x, Session.Uses (if x ∈ s.sessionMap then
        { s.sessions x with input := { (s.sessions x).input with
            discardMarker := some ⟨s.count, getNextDiscardMarkerIndex s.index⟩ } }
        else s.sessions x) n) → s.Uses n := by
      rintro n (hj | ⟨x, hx⟩)
      · exact .inl hj
      · refine .inr ⟨x, ?_⟩
        split at hx <;> exact hx
    have hmem : ∀ n, n ∈ (s.outbox ++ [(k, (⟨s.count, getNextDiscardMarkerIndex s.index⟩ : Marker))]).map
        (·.2.no) ++ s.bus.filterMap (fun e => e.2.marker.map (·.no)) ↔
          n ∈ s.undelivered ∨ n = s.count := by
      intro n
      simp only [State.undelivered, List.map_append, List.map_cons, List.map_nil, List.mem_append,
        List.mem_singleton]
      tauto
    refine ⟨?_, ?_, ?_⟩
    · intro n hn
      show n < s.count + 1
      rcases (hmem n).mp hn with hn | hn
      · exact Nat.lt_succ_of_lt (h.bounded n hn)
      · omega
    · have hperm : ((s.outbox ++ [(k, (⟨s.count, getNextDiscardMarkerIndex s.index⟩ : Marker))]).map
          (·.2.no) ++ s.bus.filterMap (fun e => e.2.marker.map (·.no))).Perm
            (s.count :: s.undelivered) := by
        rw [List.map_append, List.append_assoc]
        exact List.perm_middle
      refine (hperm.nodup_iff).mpr (List.nodup_cons.mpr ⟨?_, h.nodup⟩)
      intro hin
      exact absurd (h.bounded _ hin) (Nat.lt_irrefl _)
    · intro n hn
      obtain ⟨hlt, hnot⟩ := h.delivered n (huses n hn)
      refine ⟨Nat.lt_succ_of_lt hlt, ?_⟩
      intro hin
      rcases (hmem n).mp hin with hin | hin
      · exact hnot hin
      · omega

/-- The client takes a message from its bus. -/
theorem Numbers.recv (h : Numbers s) {e : Event} (hfind : s.bus.find? (·.1 == k) = some (k, e)) :
    Numbers { s.handle k e with bus := s.bus.eraseP (·.1 == k) } := by
  have hsub : ({ s.handle k e with bus := s.bus.eraseP (·.1 == k) } : State).undelivered.Sublist
      s.undelivered := by
    have herase : (s.bus.eraseP (·.1 == k)).Sublist s.bus := List.eraseP_sublist
    cases e <;> exact (List.Sublist.refl _).append (herase.filterMap _)
  cases e with
  | exit id => exact h.shrink (fun _ hn => hn) hsub.subperm rfl
  | discard m =>
    -- the marker is delivered now
    have hperm : s.undelivered.Perm (m.no ::
        ({ s.handle k (.discard m) with bus := s.bus.eraseP (·.1 == k) } : State).undelivered) := by
      have hbus := (perm_of_find hfind).filterMap (fun e => e.2.marker.map (·.no))
      exact (hbus.append_left _).trans List.perm_middle
    have hnew : m.no < s.count ∧
        m.no ∉ ({ s.handle k (.discard m) with bus := s.bus.eraseP (·.1 == k) } : State).undelivered :=
      ⟨h.bounded _ (hperm.mem_iff.mpr List.mem_cons_self),
        (List.nodup_cons.mp (hperm.nodup_iff.mp h.nodup)).1⟩
    refine ⟨fun n hn => h.bounded n (hsub.subset hn), h.nodup.sublist hsub, ?_⟩
    rintro n (⟨j, hj⟩ | hx)
    · have hj' : n = m.no ∨ (s.objects j).Uses n := by
        simp only [State.handle] at hj
        split at hj
        · rcases hj with ⟨m', hm', rfl⟩ | hstream
          · exact .inl (congrArg Marker.no (Option.some.inj hm')).symm
          · exact .inr (.inr hstream)
        · exact .inr hj
      rcases hj' with rfl | hj'
      · exact hnew
      · obtain ⟨hlt, hnot⟩ := h.delivered n (.inl ⟨j, hj'⟩)
        exact ⟨hlt, fun hmem => hnot (hsub.subset hmem)⟩
    · obtain ⟨hlt, hnot⟩ := h.delivered n (.inr hx)
      exact ⟨hlt, fun hmem => hnot (hsub.subset hmem)⟩

/-- The client sends input: a marker goes from its object into the stream. -/
theorem Object.uses_of_input {buf : Bytes}
    (h : Object.Uses { o with discardMarker := none
                              stream := o.stream ++ ((match o.discardMarker with
                                | some m => markerCells m
                                | none => []) ++ userCells buf) } n) : o.Uses n := by
  rcases h with ⟨m, hm, -⟩ | ⟨c, hc, htag⟩
  · cases hm
  · rcases List.mem_append.mp hc with hc | hc
    · exact .inr ⟨c, hc, htag⟩
    · rcases List.mem_append.mp hc with hc | hc
      · split at hc
        · next m hm =>
          rw [tag_markerCells hc] at htag
          exact .inl ⟨m, hm, Option.some.inj htag⟩
        · cases hc
      · rw [tag_userCells hc] at htag
        cases htag

/-- The reader takes bytes out of the stream. -/
theorem Numbers.read (h : Numbers s) (x n : Nat) :
    let c := s.sessions x
    let o := s.objects c.object
    Numbers ((s.setObject c.object { o with stream := o.stream.drop n }).setSession x
      { c with reader := .got (o.stream.take n) }) := by
  intro c o
  refine h.frame (fun n' hn => ?_) rfl rfl
  -- first the session, which takes bytes out of the stream as it was
  have hn' : ((s.setSession x { c with reader := .got (o.stream.take n) }).setObject c.object
      { o with stream := o.stream.drop n }).Uses n' := hn
  refine uses_setSession ?_ (uses_setObject ?_ hn')
  · rintro ⟨cell, hcell, htag⟩
    rcases List.mem_append.mp hcell with hcell | hcell
    · exact .inr ⟨x, cell, List.mem_append_left _ hcell, htag⟩
    · exact .inl ⟨_, .inr ⟨cell, List.mem_of_mem_take hcell, htag⟩⟩
  · rintro (hm | ⟨cell, hcell, htag⟩)
    · exact .inl ⟨_, .inl hm⟩
    · exact .inl ⟨_, .inr ⟨cell, List.mem_of_mem_drop hcell, htag⟩⟩

/-- **Step lemma**: undelivered markers are nowhere. -/
theorem Numbers.next {l : Label} (h : Numbers s) (hn : next s l = some s') : Numbers s' := by
  -- the cells of a session, found again in the session before the step
  have hsession : ∀ (x : Nat) (c : Session), (∀ cell ∈ c.input.discardedBuffer ++ c.reader.buf,
      cell ∈ (s.sessions x).input.discardedBuffer ++ (s.sessions x).reader.buf) →
      ∀ n, c.Uses n → s.Uses n := by
    rintro x c hsub n ⟨cell, hcell, htag⟩
    exact .inr ⟨x, cell, hsub cell hcell, htag⟩
  cases l with
  | newSession k id =>
    obtain ⟨-, rfl⟩ := when_eq_some hn
    refine h.frame (fun n => uses_setObject ?_) rfl rfl
    rintro (⟨m, hm, -⟩ | ⟨c, hc, -⟩)
    · cases hm
    · cases hc
  | startSession j | attachTo j id =>
    obtain ⟨-, rfl⟩ := when_eq_some hn
    exact h.frame (fun n => uses_setObject fun ho => .inl ⟨j, ho⟩) rfl rfl
  | activate k =>
    cases hn
    refine h.frame ?_ rfl rfl
    rintro n (hj | ⟨x, hx⟩)
    · exact .inl hj
    · refine .inr ⟨x, ?_⟩
      simp only [State.activate] at hx
      split at hx <;> exact hx
  | closeServer k | setKeep k keep | remove id =>
    cases hn
    exact h.frame (fun _ hn => hn) rfl rfl
  | reconnect k =>
    obtain ⟨-, rfl⟩ := when_eq_some hn
    exact h.reconnect k
  | create j =>
    obtain ⟨-, rfl⟩ := when_eq_some hn
    refine h.frame (fun n hn => ?_) rfl rfl
    refine uses_setObject ?_ (uses_setSession ?_ hn)
    · exact fun ho => .inl ⟨j, ho⟩
    · rintro ⟨c, hc, -⟩
      cases hc
  | ack x =>
    obtain ⟨-, rfl⟩ := when_eq_some hn
    refine h.frame (fun n hn => ?_) rfl rfl
    refine uses_setObject ?_ (uses_setSession ?_ hn)
    · exact fun ho => .inl ⟨_, ho⟩
    · rintro ⟨c, hc, htag⟩
      simp only [Reader.buf_acked, List.append_nil] at hc
      exact .inr ⟨x, c, List.mem_append_left _ hc, htag⟩
  | connect x =>
    obtain ⟨-, rfl⟩ := when_eq_some hn
    refine h.frame (fun n => uses_setSession (hsession x _ ?_ n)) rfl rfl
    intro cell hcell
    simp only [Reader.buf_idle, List.append_nil] at hcell
    exact List.mem_append_left _ hcell
  | lookup j =>
    obtain ⟨x, -, -, -, rfl⟩ := next_lookup hn
    exact h.frame (fun n => uses_setObject fun ho => .inl ⟨j, ho⟩) rfl rfl
  | attach j =>
    obtain ⟨x, -, -, rfl⟩ := next_attach hn
    refine h.frame (fun n hn => ?_) rfl rfl
    refine uses_setObject ?_ (uses_setSession ?_ hn)
    · exact fun ho => .inl ⟨j, ho⟩
    · exact fun hc => .inr ⟨x, hc⟩
  | close x told =>
    obtain ⟨-, rfl⟩ := when_eq_some hn
    refine h.frame (fun n hn => uses_setSession ?_ hn) ?_ rfl
    · exact fun hc => .inr ⟨x, hc⟩
    · dsimp only [State.undelivered, State.setSession]
      split
      · rw [List.filterMap_append]
        exact congrArg _ (List.append_nil _)
      · rfl
  | send i =>
    obtain ⟨k, m, hi, rfl⟩ := next_send hn
    exact h.send hi
  | sendFails i =>
    obtain ⟨-, rfl⟩ := when_eq_some hn
    refine h.shrink (fun _ hn => hn) ?_ rfl
    exact (((List.eraseIdx_sublist _ i).map _).append (List.Sublist.refl _)).subperm
  | recv k =>
    obtain ⟨k', e, hfind, rfl⟩ := next_recv hn
    have hk : k' = k := by simpa using List.find?_some hfind
    rw [hk] at hfind
    exact h.recv hfind
  | input j buf =>
    obtain ⟨-, rfl⟩ := when_eq_some hn
    refine h.frame (fun n => uses_setObject ?_) rfl rfl
    exact fun ho => .inl ⟨j, Object.uses_of_input ho⟩
  | read x n =>
    obtain ⟨-, rfl⟩ := when_eq_some hn
    exact h.read x n
  | loadServer x =>
    obtain ⟨buf, hr, rfl⟩ := next_loadServer hn
    refine h.frame (fun n => uses_setSession (hsession x _ ?_ n)) rfl rfl
    intro cell hcell
    rw [hr]
    dsimp only at hcell
    split at hcell
    · simp only [Reader.buf_idle, List.append_nil] at hcell
      exact List.mem_append_left _ hcell
    · exact hcell
  | forward x accepts =>
    obtain ⟨buf, hr, rfl⟩ := next_forward hn
    refine h.frame (fun n => uses_setSession (hsession x _ ?_ n)) rfl rfl
    intro cell hcell
    rw [Reader.buf_after, List.append_nil] at hcell
    rw [hr]
    exact (forwardInput_buffer_sublist _ _ _).subset hcell

theorem markers_numbers (hs : markers.Reachable s) : Numbers s :=
  System.invariant_ofStep start_numbers (fun _ _ _ h => h.next) hs

/-! ## Runs in which both ends are in step -/

instance (cells : Cells) : Decidable (UserOnly cells) :=
  inferInstanceAs (Decidable (∀ c ∈ cells, c.tag = none))

instance (c : Session) (buf : Cells) : Decidable (c.FindsOwn buf) := by
  unfold Session.FindsOwn
  split
  · infer_instance
  · split <;> infer_instance

/-- The two ends are in step:

    * when a client stores a marker, each of its attached sessions waits for a marker that the
      client has not stored yet;
    * a session is created for, or attached to, an object that holds no marker;
    * no marker is in the hands of the reader while the session changes hands;
    * what `forwardInput` takes for the marker is the marker. -/
def InStep (s : State) : Label → Prop
  | .recv k =>
    match s.bus.find? (·.1 == k) with
    | some (_, .discard _) =>
      ∀ x < s.sessionCount, (s.sessions x).server = some k → s.inMap (s.sessions x).object →
        ∃ m ∈ s.pending k, (s.sessions x).input.discardMarker = some m
    | _ => True
  | .create j => (s.objects j).discardMarker = none
  | .attach j =>
    (s.objects j).discardMarker = none ∧
      match (s.objects j).request with
      | .found x => UserOnly (s.sessions x).reader.buf
      | _ => True
  | .activate _ =>
    ∀ x ∈ s.sessionMap, match (s.sessions x).reader with
      | .loaded buf => UserOnly buf
      | _ => True
  | .forward x _ =>
    match (s.sessions x).reader with
    | .loaded buf => (s.sessions x).FindsOwn buf
    | _ => True
  | _ => True

instance (s : State) (l : Label) : Decidable (InStep s l) := by
  unfold InStep
  split
  · split <;> infer_instance
  · infer_instance
  · refine @instDecidableAnd _ _ inferInstance ?_
    split <;> infer_instance
  · refine @List.decidableBAll _ _ (fun x => ?_) _
    split <;> infer_instance
  · split <;> infer_instance
  · infer_instance

/-- All sessions are in step with their objects. -/
def AllOk (s : State) : Prop := ∀ x, SessionOk (s.sessions x) (s.objects (s.sessions x).object)

theorem start_allOk : AllOk start := by
  intro x
  refine ⟨fun hserver => absurd rfl hserver, fun _ => ⟨?_, ?_⟩, userOnly_nil⟩
  · intro buf hbuf
    cases hbuf
  · intro m hm
    cases hm

theorem AllOk.setObject (h : AllOk s) (ho : ∀ c, SessionOk c (s.objects j) → SessionOk c o) :
    AllOk (s.setObject j o) := by
  intro x
  by_cases hj : (s.sessions x).object = j
  · have hx := h x
    simp only [setObject_sessions, hj, setObject_self]
    rw [hj] at hx
    exact ho _ hx
  · simp only [setObject_sessions, setObject_ne hj]
    exact h x

theorem AllOk.setSession (h : AllOk s) {x : Nat} {c : Session}
    (hc : SessionOk c (s.objects c.object)) : AllOk (s.setSession x c) := by
  intro y
  by_cases hy : y = x
  · rw [hy, setSession_self]
    exact hc
  · rw [setSession_ne hy]
    exact h y

theorem mem_undelivered (h : m ∈ s.pending k) : m.no ∈ s.undelivered := by
  rcases List.mem_append.mp h with h | h
  · obtain ⟨e, he, hm⟩ := List.mem_filterMap.mp h
    apply List.mem_append_right
    exact List.mem_filterMap.mpr ⟨e, (List.mem_filter.mp he).1, by rw [hm]; rfl⟩
  · obtain ⟨e, he, rfl⟩ := List.mem_map.mp h
    apply List.mem_append_left
    exact List.mem_map.mpr ⟨e, (List.mem_filter.mp he).1, rfl⟩

/-- The client stores a marker in its objects. -/
theorem AllOk.store (h : AllOk s) (hw : Wiring s) (hnum : Numbers s) (m : Marker)
    (hok : ∀ x < s.sessionCount, (s.sessions x).server = some k →
      s.inMap (s.sessions x).object → ∃ m ∈ s.pending k, (s.sessions x).input.discardMarker = some m) :
    AllOk (s.handle k (.discard m)) := by
  intro x
  show SessionOk (s.sessions x) (if _ then _ else _)
  split
  · next hin =>
    apply (h x).store
    intro hserver
    obtain ⟨k', hk'⟩ := Option.ne_none_iff_exists'.mp hserver
    obtain ⟨hx, hclient⟩ := hw.attached x k' hk'
    have hkk : k' = k := hclient.symm.trans hin.1
    obtain ⟨m', hpending, hm'⟩ := hok x hx (hkk ▸ hk') hin.2
    exact ⟨m', hm', hnum.free (mem_undelivered hpending) x _⟩
  · exact h x

/-- The server sets a fresh marker on its sessions. -/
theorem AllOk.reconnect (h : AllOk s) (hnum : Numbers s) (k : Nat) :
    AllOk (s.enablePendingInputDiscard k) := by
  have hfresh : ¬ s.Uses s.count := by
    intro huse
    exact absurd (hnum.delivered _ huse).1 (Nat.lt_irrefl _)
  unfold State.enablePendingInputDiscard
  split
  · exact h
  · intro x
    dsimp only
    split
    · exact (h x).mark (free_of_not_uses x _ hfresh)
    · exact h x

/-- **Step lemma**: a step in step keeps all sessions in step. -/
theorem AllOk.next {l : Label} (h : AllOk s) (hw : Wiring s) (hnum : Numbers s) (hok : InStep s l)
    (hn : next s l = some s') : AllOk s' := by
  cases l with
  | newSession k id =>
    obtain ⟨-, rfl⟩ := when_eq_some hn
    have hset := h.setObject (j := s.objectCount) (o := ⟨k, id, .opened, false, none, []⟩)
      (fun c hc => hc.fresh rfl rfl)
    exact hset
  | startSession j =>
    obtain ⟨-, rfl⟩ := when_eq_some hn
    exact h.setObject (fun c hc => ⟨hc.attached, hc.detached, hc.stdin⟩)
  | attachTo j id =>
    obtain ⟨-, rfl⟩ := when_eq_some hn
    have hset := h.setObject (j := j) (o := { s.objects j with id := id, request := .attach })
      (fun c hc => ⟨hc.attached, hc.detached, hc.stdin⟩)
    exact hset
  | activate k =>
    cases hn
    intro x
    simp only [State.activate]
    split
    · next hx =>
      -- in step, no marker is in the reader's hands at the detach
      apply (h x).detach
      intro buf hbuf
      have hx' := hok x hx
      rw [hbuf] at hx'
      exact hx'
    · exact h x
  | closeServer k =>
    cases hn
    exact h
  | setKeep k keep =>
    cases hn
    exact h
  | reconnect k =>
    obtain ⟨-, rfl⟩ := when_eq_some hn
    -- the new marker has a number that nothing uses yet
    exact h.reconnect hnum k
  | create j =>
    obtain ⟨⟨hreq, -⟩, rfl⟩ := when_eq_some hn
    -- no session is served yet, so nothing was sent on the stream
    have hstream : (s.objects j).stream = [] := by
      apply hw.stream_nil
      intro x
      rw [hreq]
      exact Request.noConfusion
    have hset : AllOk (s.setObject j { s.objects j with request := .serves s.sessionCount }) :=
      h.setObject (fun c hc => ⟨hc.attached, hc.detached, hc.stdin⟩)
    refine hset.setSession (c := ⟨_, _, j, _, _, _, _⟩) ?_
    simp only [setObject_self]
    exact SessionOk.create hstream hok
  | ack x =>
    obtain ⟨⟨-, hr⟩, rfl⟩ := when_eq_some hn
    have hset : AllOk (s.setObject (s.sessions x).object
        { s.objects (s.sessions x).object with running := true }) :=
      h.setObject (fun c hc => ⟨hc.attached, hc.detached, hc.stdin⟩)
    refine hset.setSession ?_
    exact (hset x).setReader (s.sessions x).connected (by simp [hr, Reader.buf])
      (fun _ => Reader.noConfusion)
  | connect x =>
    obtain ⟨hr, rfl⟩ := when_eq_some hn
    refine h.setSession ?_
    exact (h x).setReader true (by rw [hr, Reader.buf_idle, Reader.buf_acked])
      (fun _ => Reader.noConfusion)
  | lookup j =>
    obtain ⟨x, -, -, -, rfl⟩ := next_lookup hn
    exact h.setObject (fun c hc => ⟨hc.attached, hc.detached, hc.stdin⟩)
  | attach j =>
    obtain ⟨hmarker, hreader⟩ := hok
    obtain ⟨x, hreq, ⟨-, hserver, -⟩, rfl⟩ := next_attach hn
    rw [hreq] at hreader
    have hstream : (s.objects j).stream = [] := by
      apply hw.stream_nil
      intro y
      rw [hreq]
      exact Request.noConfusion
    have hset : AllOk (s.setObject j { s.objects j with request := .serves x, running := true }) :=
      h.setObject (fun c hc => ⟨hc.attached, hc.detached, hc.stdin⟩)
    refine hset.setSession ?_
    simp only [setObject_self]
    -- in step, neither the object nor the reader holds a marker
    refine (h x).attach hserver hreader ?_ ?_ _ j
    · exact hstream
    · exact hmarker
  | close x told =>
    obtain ⟨-, rfl⟩ := when_eq_some hn
    have hset : AllOk (s.setSession x { s.sessions x with closed := true }) :=
      h.setSession ⟨(h x).attached, (h x).detached, (h x).stdin⟩
    exact hset
  | remove id =>
    cases hn
    exact h
  | send i =>
    obtain ⟨k, m, -, rfl⟩ := next_send hn
    exact h
  | sendFails i =>
    obtain ⟨-, rfl⟩ := when_eq_some hn
    exact h
  | recv k =>
    obtain ⟨k', e, hfind, rfl⟩ := next_recv hn
    simp only [InStep, hfind] at hok
    cases e with
    | exit id => exact h
    -- in step, the sessions it serves wait for a marker that is on the way
    | discard m => exact h.store hw hnum m hok
  | input j buf =>
    obtain ⟨-, rfl⟩ := when_eq_some hn
    exact h.setObject (fun c hc => hc.input buf)
  | read x n =>
    obtain ⟨⟨-, hr, -⟩, rfl⟩ := when_eq_some hn
    have hset : AllOk (s.setObject (s.sessions x).object
        { s.objects (s.sessions x).object with
          stream := (s.objects (s.sessions x).object).stream.drop n }) :=
      h.setObject (fun c hc => hc.drop n)
    refine hset.setSession ?_
    -- the bytes move from the stream to the reader
    simp only [setObject_self]
    exact (h x).read hr n
  | loadServer x =>
    obtain ⟨buf, hr, rfl⟩ := next_loadServer hn
    exact h.setSession ((h x).loadServer hr)
  | forward x accepts =>
    obtain ⟨buf, hr, rfl⟩ := next_forward hn
    -- in step, what is taken for the marker is the marker
    simp only [InStep, hr] at hok
    exact h.setSession ((h x).forward hr hok accepts)

/-- **No marker reaches a program**, in every run in which both ends are in step: everything
    that is written to the `stdin` of a session was typed by the user. -/
theorem stdin_without_markers (hs : (markers.restrict InStep).Reachable s) (x : Nat) :
    ∀ c ∈ (s.sessions x).input.stdin, c.tag = none := by
  have hknown : ∀ s, (markers.restrict InStep).Reachable s → Wiring s ∧ Numbers s := by
    intro s hs
    exact ⟨markers_wiring hs.of_restrict, markers_numbers hs.of_restrict⟩
  have hall : AllOk s := by
    refine System.invariant_with _ hknown ?_ ?_ hs
    · rintro s rfl
      exact start_allOk
    · intro s l s' ⟨hw, hnum⟩ h ⟨hok, hstep⟩
      exact h.next hw hnum hok hstep
  exact (hall x).stdin

/-- It types `h` while it is disconnected and `i` after it has been told the marker. -/
def discardInStep : List Label :=
  oneSession ++ [.input 0 [104], .reconnect 1, .send 0, .recv 1, .input 0 [105], .read 0 100,
    .loadServer 0, .forward 0 100]

theorem stdin_without_markers_in_step :
    ∃ s, (markers.restrict InStep).Reachable s ∧ (s.sessions 0).input.stdin = [⟨105, none⟩] ∧
      ∀ c ∈ (s.sessions 0).input.stdin, c.tag = none := by
  obtain ⟨s, hrun, hstdin⟩ : ∃ s,
      runLabels (fun s l => if InStep s l then next s l else none) start discardInStep = some s ∧
      (s.sessions 0).input.stdin = [⟨105, none⟩] :=
    exists_of_runLabels (by decide +kernel)
  have hs := System.Reachable.of_runLabels_restrict hrun
  exact ⟨s, hs, hstdin, stdin_without_markers hs 0⟩

/-- The client has opened a second session that the server has not created when it sets the
    marker; the client stores the marker in both objects, and the user types `a` into the
    second session. -/
def secondSession : List Label :=
  oneSession ++ [.newSession 1 2, .reconnect 1, .send 0, .recv 1, .startSession 1, .create 1,
    .ack 1, .connect 1, .input 1 [97], .read 1 100, .loadServer 1, .forward 1 100]

/-- The program of the second session gets the marker. -/
theorem stdin_gets_marker :
    ∃ s, markers.Reachable s ∧
      (s.sessions 1).input.stdin = markerCells ⟨0, 1⟩ ++ userCells [97] := by
  obtain ⟨s, hrun, hstdin⟩ : ∃ s, runLabels next start secondSession = some s ∧
      (s.sessions 1).input.stdin = markerCells ⟨0, 1⟩ ++ userCells [97] :=
    exists_of_runLabels (by decide +kernel)
  exact ⟨s, .of_runLabels (fun _ _ _ h => h) (.init rfl) hrun, hstdin⟩

end Markers
