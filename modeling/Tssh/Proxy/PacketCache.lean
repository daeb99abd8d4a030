import Tssh.Framework.Ring
import Tssh.Framework.Slice
import Tssh.Framework.System
import Mathlib.Algebra.Ring.Nat

/-! # The Packet Cache of a Proxy

    While the peer is timed out both proxies keep what they would have sent in a `packetCache`
    (`tsshd/proxy.go`): the first `kPacketCacheSize` packets, a ring with the last
    `kPacketCacheSize` of the packets after those, and a ring of `kSampleCacheSize` packets
    sampled while the peer was still there.  `sendCache` gives the three to a writer after a
    reconnect, and `clearCache` empties them.  The cursor of the sample ring is not reset by a
    clear.

    Every `add` copies the caller's bytes into a new array.  The callers go on using their own
    buffers, so the arrays are explicit here and a caller may overwrite its own at any time.

    * `PacketCache`, with its index bounds as fields, and the four operations.
    * `cacheRuns`: any calls, between any writes of the callers.
    * `Inv`: the buffers against the history of the calls since the last clear.
-/

open LTS Go

namespace PacketCaches

/-! ## The cache -/

def kSampleCacheSize : Nat := 10

def kPacketCacheSize : Nat := 100

/-- `packetCache`.  The last fields are what keeps every index of the code in range. -/
structure PacketCache where
  firstBuf : List Slice
  recentBuf : List Slice
  recentIdx : Nat
  totalSize : Nat
  totalCount : Nat
  sampleIdx : Nat
  sampleBuf : List Slice
  recent_le : recentBuf.length ≤ kPacketCacheSize
  recentIdx_lt : recentIdx < kPacketCacheSize
  recentIdx_zero : recentBuf.length < kPacketCacheSize → recentIdx = 0
  sample_length : sampleBuf.length = kSampleCacheSize
  sampleIdx_lt : sampleIdx < kSampleCacheSize

/-- The zero value: ten `nil` samples. -/
def PacketCache.new : PacketCache where
  firstBuf := []
  recentBuf := []
  recentIdx := 0
  totalSize := 0
  totalCount := 0
  sampleIdx := 0
  sampleBuf := List.replicate kSampleCacheSize Slice.empty
  recent_le := by decide
  recentIdx_lt := by decide
  recentIdx_zero := fun _ => rfl
  sample_length := by decide
  sampleIdx_lt := by decide

/-- `data := make([]byte, len(buf)); copy(data, buf)`. -/
def clone (h : Heap) (buf : Slice) : Slice × Heap :=
  let made := h.alloc (List.replicate buf.len 0)
  (made.1, copy made.2 made.1 buf)

def addSample (p : PacketCache) (h : Heap) (buf : Slice) : PacketCache × Heap :=
  let data := (clone h buf).1
  ({ p with
      sampleBuf := p.sampleBuf.set p.sampleIdx data
      sampleIdx := Ring.advance kSampleCacheSize p.sampleIdx
      sample_length := by rw [List.length_set]; exact p.sample_length
      sampleIdx_lt := Ring.advance_lt (by decide) _ },
   (clone h buf).2)

/-- The second half of `addPacket`: into `firstBuf`, at the end of `recentBuf`, or over the
    oldest recent packet. -/
def place (p : PacketCache) (data : Slice) : PacketCache :=
  if p.firstBuf.length < kPacketCacheSize then { p with firstBuf := p.firstBuf ++ [data] }
  else if hrecent : p.recentBuf.length < kPacketCacheSize then
    { p with
      recentBuf := p.recentBuf ++ [data]
      recent_le := by rw [List.length_append]; exact hrecent
      recentIdx_zero := fun _ => p.recentIdx_zero hrecent }
  else
    { p with
      recentBuf := p.recentBuf.set p.recentIdx data
      recentIdx := Ring.advance kPacketCacheSize p.recentIdx
      recent_le := by rw [List.length_set]; exact p.recent_le
      recentIdx_lt := Ring.advance_lt (by decide) _
      recentIdx_zero := fun hlt => absurd (by simpa using hlt) hrecent }

def addPacket (p : PacketCache) (h : Heap) (buf : Slice) : PacketCache × Heap :=
  let p := { p with totalSize := p.totalSize + buf.len, totalCount := p.totalCount + 1 }
  (place p (clone h buf).1, (clone h buf).2)

/-- `clearCache`: the totals it returns, and the empty cache.  `sampleIdx` stays. -/
def clearCache (p : PacketCache) : (Nat × Nat) × PacketCache :=
  ((p.totalSize, p.totalCount),
   { p with
      sampleBuf := List.replicate kSampleCacheSize Slice.empty
      firstBuf := []
      recentBuf := []
      recentIdx := 0
      totalSize := 0
      totalCount := 0
      recent_le := by decide
      recentIdx_lt := by decide
      recentIdx_zero := fun _ => rfl
      sample_length := by decide })

/-! ## Sending -/

/-- `sendCache` on its way: the state of the writer and the two named results. -/
structure Flush (σ : Type) where
  writer : σ
  flushSize : Nat
  flushCount : Nat
  deriving DecidableEq, Repr

section Sending

variable {σ : Type} (h : Heap) (writeFn : σ → Bytes → σ × Option String)

/-- One call of `writeFn`.  Its error is only logged. -/
def Flush.write (f : Flush σ) (buf : Slice) : Flush σ where
  writer := (writeFn f.writer (buf.bytes h)).1
  flushSize := f.flushSize + buf.len
  flushCount := f.flushCount + 1

/-- The loop over the samples. -/
def sendSamples (p : PacketCache) (f : Flush σ) : Flush σ :=
  (List.range kSampleCacheSize).foldl (fun f i =>
    let buf := p.sampleBuf.getD ((p.sampleIdx + i) % kSampleCacheSize) Slice.empty
    if buf.len = 0 then f else f.write h writeFn buf) f

/-- The loop over the recent packets. -/
def sendRecent (p : PacketCache) (f : Flush σ) : Flush σ :=
  (List.range p.recentBuf.length).foldl (fun f i =>
    f.write h writeFn
      (p.recentBuf.getD ((p.recentIdx + i) % kPacketCacheSize) Slice.empty)) f

def sendCache (p : PacketCache) (writer : σ) : Flush σ :=
  let f := sendSamples h writeFn p ⟨writer, 0, 0⟩
  let f := p.firstBuf.foldl (Flush.write h writeFn) f
  sendRecent h writeFn p f

end Sending

/-! ## The system -/

/-- The cache, the memory, and the arrays that belong to callers.  `packets` and `samples` are
    the contents that the `addPacket` and `addSample` calls since the last clear were given. -/
structure State where
  cache : PacketCache
  heap : Heap
  callers : List Nat
  packets : List Bytes
  samples : List Bytes

def start : State where
  cache := .new
  heap := ⟨[]⟩
  callers := []
  packets := []
  samples := []

/-- A caller makes a buffer, overwrites a part of one, or calls the cache. -/
inductive Label where
  | make (content : Bytes)
  | overwrite (arr pos : Nat) (content : Bytes)
  | addPacket (buf : Slice)
  | addSample (buf : Slice)
  | clear
  deriving DecidableEq, Repr

/-- What the history says `sendCache` has to pass on. -/
def State.due (s : State) : List Bytes :=
  (s.samples.rtake kSampleCacheSize).filter (fun b => !b.isEmpty) ++
    s.packets.take kPacketCacheSize ++
    (s.packets.drop kPacketCacheSize).rtake kPacketCacheSize

def next (s : State) : Label → Option State
  | .make content =>
    some { s with
      heap := (s.heap.alloc content).2
      callers := s.callers ++ [s.heap.arrays.length] }
  | .overwrite arr pos content =>
    enabledIf (arr ∈ s.callers ∧ pos + content.length ≤ (s.heap.array arr).length)
      { s with heap := s.heap.store arr pos content }
  | .addPacket buf =>
    enabledIf (buf.arr ∈ s.callers ∧ buf.Valid s.heap)
      { s with
        cache := (addPacket s.cache s.heap buf).1
        heap := (addPacket s.cache s.heap buf).2
        packets := s.packets ++ [buf.bytes s.heap] }
  | .addSample buf =>
    enabledIf (buf.arr ∈ s.callers ∧ buf.Valid s.heap)
      { s with
        cache := (addSample s.cache s.heap buf).1
        heap := (addSample s.cache s.heap buf).2
        samples := s.samples ++ [buf.bytes s.heap] }
  | .clear =>
    some { s with cache := (clearCache s.cache).2, packets := [], samples := [] }

/-- All runs of calls of the cache and writes of its callers. -/
def cacheRuns : System State Label := .ofStep start next

/-! ## The cached slices -/

variable {buf d : Slice} {s : State}

theorem clone_spec {h : Heap} (hbuf : buf.Valid h) :
    h.le (clone h buf).2 ∧ (clone h buf).1.Valid (clone h buf).2 ∧
      (clone h buf).1.bytes (clone h buf).2 = buf.bytes h ∧
      (clone h buf).1.arr = h.arrays.length := by
  have hmade : (h.alloc (List.replicate buf.len 0)).1 =
      (h.alloc (List.replicate buf.len 0)).1.upTo buf.len := by
    simp [Heap.alloc, Slice.upTo]
  have hcopy := copy_alloc_front hbuf (List.replicate buf.len 0) rfl (by simp)
  rw [← hmade] at hcopy
  exact ⟨hcopy.1, hcopy.2.1, hcopy.2.2, rfl⟩

/-- A slice the cache may hold: it shows nothing, or it is a window into an array that no
    caller has. -/
def Owned (s : State) (d : Slice) : Prop :=
  d.len = 0 ∨ (d.Valid s.heap ∧ d.arr ∉ s.callers)

theorem bytes_of_len_zero (hd : d.len = 0) (h : Heap) : d.bytes h = [] := by
  rw [Slice.bytes, hd, List.take_zero]

theorem Owned.length_bytes (hd : Owned s d) : (d.bytes s.heap).length = d.len := by
  rcases hd with hzero | ⟨hvalid, -⟩
  · rw [bytes_of_len_zero hzero, hzero]
    rfl
  · exact hvalid.length_bytes

/-- New arrays, whether the cache or a caller makes them, leave the cached slices alone. -/
theorem Owned.mono {s s' : State} (hd : Owned s d) (hle : s.heap.le s'.heap)
    (hcallers : ∀ a ∈ s'.callers, a ∈ s.callers ∨ s.heap.arrays.length ≤ a) :
    Owned s' d ∧ d.bytes s'.heap = d.bytes s.heap := by
  rcases hd with hzero | ⟨hvalid, hfree⟩
  · exact ⟨.inl hzero, by rw [bytes_of_len_zero hzero, bytes_of_len_zero hzero]⟩
  · refine ⟨.inr ⟨hvalid.mono hle, ?_⟩, hvalid.bytes_mono hle⟩
    intro hmem
    rcases hcallers _ hmem with hold | hnew
    · exact hfree hold
    · exact absurd hvalid.alloc (Nat.not_lt.mpr hnew)

/-- A caller that writes into its own array leaves the cached slices alone. -/
theorem Owned.store (hd : Owned s d) {arr pos : Nat} {content : Bytes} (harr : arr ∈ s.callers)
    (hfit : pos + content.length ≤ (s.heap.array arr).length) :
    Owned { s with heap := s.heap.store arr pos content } d ∧
      d.bytes (s.heap.store arr pos content) = d.bytes s.heap := by
  rcases hd with hzero | ⟨hvalid, hfree⟩
  · exact ⟨.inl hzero, by rw [bytes_of_len_zero hzero, bytes_of_len_zero hzero]⟩
  · have hne : arr ≠ d.arr := fun heq => hfree (heq ▸ harr)
    exact ⟨.inr ⟨hvalid.store hfit, hfree⟩, Slice.bytes_store_of_ne hne⟩

/-! ## The invariant -/

/-- Every slice in the cache. -/
def PacketCache.slices (p : PacketCache) : List Slice :=
  p.firstBuf ++ p.recentBuf ++ p.sampleBuf

/-- The cache against the history of the calls since the last clear. -/
structure Inv (s : State) : Prop where
  callers : ∀ a ∈ s.callers, a < s.heap.arrays.length
  owned : ∀ d ∈ s.cache.slices, Owned s d
  firsts : s.cache.firstBuf.map (Slice.bytes s.heap) = s.packets.take kPacketCacheSize
  recents : (s.cache.recentBuf.map (Slice.bytes s.heap)).rotate s.cache.recentIdx =
    (s.packets.drop kPacketCacheSize).rtake kPacketCacheSize
  samples : (s.cache.sampleBuf.map (Slice.bytes s.heap)).rotate s.cache.sampleIdx =
    (List.replicate kSampleCacheSize [] ++ s.samples).rtake kSampleCacheSize
  size : s.cache.totalSize = (s.packets.map List.length).sum
  count : s.cache.totalCount = s.packets.length

/-- Memory may change in any way that keeps the owned slices. -/
theorem Inv.of_keep {s s' : State} (hinv : Inv s) (hcache : s'.cache = s.cache)
    (hpackets : s'.packets = s.packets) (hsamples : s'.samples = s.samples)
    (hkeep : ∀ d, Owned s d → Owned s' d ∧ d.bytes s'.heap = d.bytes s.heap)
    (hcallers : ∀ a ∈ s'.callers, a < s'.heap.arrays.length) : Inv s' := by
  have hmap : ∀ l : List Slice, (∀ d ∈ l, d ∈ s.cache.slices) →
      l.map (Slice.bytes s'.heap) = l.map (Slice.bytes s.heap) := by
    intro l hl
    apply List.map_congr_left
    intro d hd
    exact (hkeep d (hinv.owned d (hl d hd))).2
  refine ⟨hcallers, ?_, ?_, ?_, ?_, ?_, ?_⟩
  · intro d hd
    rw [hcache] at hd
    exact (hkeep d (hinv.owned d hd)).1
  · rw [hcache, hpackets, hmap _ (by simp +contextual [PacketCache.slices]), hinv.firsts]
  · rw [hcache, hpackets, hmap _ (by simp +contextual [PacketCache.slices]), hinv.recents]
  · rw [hcache, hsamples, hmap _ (by simp +contextual [PacketCache.slices]), hinv.samples]
  · rw [hcache, hpackets, hinv.size]
  · rw [hcache, hpackets, hinv.count]

/-- The heap after the copy, before the cache changes. -/
theorem Inv.after_clone (hinv : Inv s) (hbuf : buf.Valid s.heap) :
    Inv { s with heap := (clone s.heap buf).2 } := by
  obtain ⟨hle, -, -, -⟩ := clone_spec hbuf
  refine hinv.of_keep rfl rfl rfl ?_ ?_
  · intro d hd
    exact hd.mono hle (fun a ha => .inl ha)
  · intro a ha
    exact Nat.lt_of_lt_of_le (hinv.callers a ha) hle.1

/-- The copy is owned and shows the caller's bytes. -/
theorem Inv.clone_owned (hinv : Inv s) (hbuf : buf.Valid s.heap) :
    Owned { s with heap := (clone s.heap buf).2 }
      (clone s.heap buf).1 := by
  obtain ⟨-, hvalid, -, harr⟩ := clone_spec hbuf
  refine .inr ⟨hvalid, ?_⟩
  intro hmem
  have hlt := hinv.callers _ hmem
  omega

theorem Inv.length_firsts (hinv : Inv s) :
    s.cache.firstBuf.length = min kPacketCacheSize s.packets.length := by
  have h := congrArg List.length hinv.firsts
  rwa [List.length_map, List.length_take] at h

theorem Inv.length_recents (hinv : Inv s) :
    s.cache.recentBuf.length = min kPacketCacheSize (s.packets.length - kPacketCacheSize) := by
  have h := congrArg List.length hinv.recents
  rw [List.length_rotate, List.length_map, List.rtake, List.length_drop, List.length_drop] at h
  omega

/-! ## One more packet -/

/-- The three places a packet can go to. -/
inductive Placed (p : PacketCache) (data : Slice) (p' : PacketCache) : Prop where
  | first (hroom : p.firstBuf.length < kPacketCacheSize)
      (hfirst : p'.firstBuf = p.firstBuf ++ [data]) (hrecent : p'.recentBuf = p.recentBuf)
      (hidx : p'.recentIdx = p.recentIdx)
  | grow (hfull : kPacketCacheSize ≤ p.firstBuf.length)
      (hroom : p.recentBuf.length < kPacketCacheSize) (hfirst : p'.firstBuf = p.firstBuf)
      (hrecent : p'.recentBuf = p.recentBuf ++ [data]) (hidx : p'.recentIdx = p.recentIdx)
  | replace (hfull : kPacketCacheSize ≤ p.firstBuf.length)
      (hround : kPacketCacheSize ≤ p.recentBuf.length) (hfirst : p'.firstBuf = p.firstBuf)
      (hrecent : p'.recentBuf = p.recentBuf.set p.recentIdx data)
      (hidx : p'.recentIdx = Ring.advance kPacketCacheSize p.recentIdx)

theorem place_placed (p : PacketCache) (data : Slice) : Placed p data (place p data) := by
  unfold place
  split
  · next hroom => exact .first hroom rfl rfl rfl
  · next hfull =>
    split
    · next hroom => exact .grow (Nat.not_lt.mp hfull) hroom rfl rfl rfl
    · next hround => exact .replace (Nat.not_lt.mp hfull) (Nat.not_lt.mp hround) rfl rfl rfl

/-- The totals and the samples are not touched. -/
theorem place_rest (p : PacketCache) (data : Slice) :
    (place p data).totalSize = p.totalSize ∧ (place p data).totalCount = p.totalCount ∧
      (place p data).sampleBuf = p.sampleBuf ∧ (place p data).sampleIdx = p.sampleIdx := by
  unfold place
  split
  · exact ⟨rfl, rfl, rfl, rfl⟩
  · split
    · exact ⟨rfl, rfl, rfl, rfl⟩
    · exact ⟨rfl, rfl, rfl, rfl⟩

theorem Placed.mem {p p' : PacketCache} {data d : Slice} (hplaced : Placed p data p')
    (hd : d ∈ p'.firstBuf ++ p'.recentBuf) : d = data ∨ d ∈ p.firstBuf ++ p.recentBuf := by
  rw [List.mem_append] at hd ⊢
  cases hplaced with
  | first _ hfirst hrecent _ | grow _ _ hfirst hrecent _ =>
    rw [hfirst, hrecent, List.mem_append, List.mem_singleton] at hd
    tauto
  | replace _ _ hfirst hrecent _ =>
    rw [hfirst, hrecent] at hd
    rcases hd with hd | hd
    · exact .inr (.inl hd)
    · rcases List.mem_or_eq_of_mem_set hd with hold | hnew
      · exact .inr (.inr hold)
      · exact .inl hnew

theorem Placed.firsts (hinv : Inv s) {data : Slice} {p' : PacketCache}
    (hplaced : Placed s.cache data p') :
    p'.firstBuf.map (Slice.bytes s.heap) =
      (s.packets ++ [data.bytes s.heap]).take kPacketCacheSize := by
  have hlen := hinv.length_firsts
  cases hplaced with
  | first hroom hfirst _ _ =>
    rw [hfirst, List.map_append, hinv.firsts, List.take_of_length_le (by omega),
      List.take_of_length_le (by rw [List.length_append, List.length_singleton]; omega)]
    rfl
  | grow hfull _ hfirst _ _ | replace hfull _ hfirst _ _ =>
    rw [hfirst, hinv.firsts, List.take_append_of_le_length (by omega)]

theorem Placed.recents (hinv : Inv s) {data : Slice} {p' : PacketCache}
    (hplaced : Placed s.cache data p') :
    (p'.recentBuf.map (Slice.bytes s.heap)).rotate p'.recentIdx =
      ((s.packets ++ [data.bytes s.heap]).drop kPacketCacheSize).rtake kPacketCacheSize := by
  have hlen := hinv.length_firsts
  have hlen' := hinv.length_recents
  cases hplaced with
  | first hroom _ hrecent hidx =>
    rw [hrecent, hidx, hinv.recents, List.drop_eq_nil_of_le (by omega), List.drop_eq_nil_of_le
      (by rw [List.length_append, List.length_singleton]; omega)]
  | grow hfull hroom _ hrecent hidx =>
    -- the ring still grows: its cursor is at zero and it holds all packets after the first
    have hzero := s.cache.recentIdx_zero hroom
    have hall := hinv.recents
    rw [hzero, List.rotate_zero, Ring.rtake_of_length_le
      (by rw [List.length_drop]; omega)] at hall
    rw [hrecent, hidx, hzero, List.rotate_zero, List.map_append, List.drop_append_of_le_length
      (by omega)]
    exact Ring.append_keeps_last (by rw [List.length_map]; exact hroom) hall _
  | replace hfull hround _ hrecent hidx =>
    have hslots : (s.cache.recentBuf.map (Slice.bytes s.heap)).length = kPacketCacheSize := by
      rw [List.length_map]
      omega
    rw [hrecent, hidx, List.map_set, List.drop_append_of_le_length (by omega)]
    exact Ring.set_keeps_last (by decide) hslots s.cache.recentIdx_lt
      (by rw [List.length_drop]; omega) hinv.recents _

/-- The totals do not matter for where a packet goes. -/
theorem addPacket_placed (p : PacketCache) (h : Heap) (buf : Slice) :
    Placed p (clone h buf).1 (addPacket p h buf).1 := by
  have hplaced := place_placed
    { p with totalSize := p.totalSize + buf.len, totalCount := p.totalCount + 1 } (clone h buf).1
  cases hplaced with
  | first hroom hfirst hrecent hidx => exact .first hroom hfirst hrecent hidx
  | grow hfull hroom hfirst hrecent hidx => exact .grow hfull hroom hfirst hrecent hidx
  | replace hfull hround hfirst hrecent hidx => exact .replace hfull hround hfirst hrecent hidx

theorem addPacket_rest (p : PacketCache) (h : Heap) (buf : Slice) :
    (addPacket p h buf).1.totalSize = p.totalSize + buf.len ∧
      (addPacket p h buf).1.totalCount = p.totalCount + 1 ∧
      (addPacket p h buf).1.sampleBuf = p.sampleBuf ∧
      (addPacket p h buf).1.sampleIdx = p.sampleIdx :=
  place_rest { p with totalSize := p.totalSize + buf.len, totalCount := p.totalCount + 1 }
    (clone h buf).1

theorem Inv.addPacket (hinv : Inv s) (hbuf : buf.Valid s.heap) :
    Inv { s with
      cache := (addPacket s.cache s.heap buf).1
      heap := (addPacket s.cache s.heap buf).2
      packets := s.packets ++ [buf.bytes s.heap] } := by
  have hcopied := hinv.after_clone hbuf
  have hdata := hinv.clone_owned hbuf
  have hplaced := addPacket_placed s.cache s.heap buf
  obtain ⟨hsize, hcount, hsampleBuf, hsampleIdx⟩ := addPacket_rest s.cache s.heap buf
  obtain ⟨-, -, hbytes, -⟩ := clone_spec hbuf
  refine ⟨hcopied.callers, ?_, ?_, ?_, ?_, ?_, ?_⟩
  · intro d hd
    rcases List.mem_append.mp hd with hd | hd
    · rcases hplaced.mem hd with rfl | hold
      · exact hdata
      · exact hcopied.owned d (List.mem_append_left _ hold)
    · exact hcopied.owned d (List.mem_append_right _ (hsampleBuf ▸ hd))
  · rw [← hbytes]
    exact Placed.firsts hcopied hplaced
  · rw [← hbytes]
    exact Placed.recents hcopied hplaced
  · rw [hsampleBuf, hsampleIdx]
    exact hcopied.samples
  · rw [hsize, hinv.size, List.map_append, List.sum_append, List.map_singleton,
      List.sum_singleton, hbuf.length_bytes]
  · rw [hcount, hinv.count, List.length_append, List.length_singleton]

theorem Inv.addSample (hinv : Inv s) (hbuf : buf.Valid s.heap) :
    Inv { s with
      cache := (addSample s.cache s.heap buf).1
      heap := (addSample s.cache s.heap buf).2
      samples := s.samples ++ [buf.bytes s.heap] } := by
  have hcopied := hinv.after_clone hbuf
  have hdata := hinv.clone_owned hbuf
  obtain ⟨-, -, hbytes, -⟩ := clone_spec hbuf
  refine ⟨hcopied.callers, ?_, hcopied.firsts, hcopied.recents, ?_, hcopied.size, hcopied.count⟩
  · intro d hd
    rcases List.mem_append.mp hd with hd | hd
    · exact hcopied.owned d (List.mem_append_left _ hd)
    · rcases List.mem_or_eq_of_mem_set hd with hold | rfl
      · exact hcopied.owned d (List.mem_append_right _ hold)
      · exact hdata
  · show ((s.cache.sampleBuf.set s.cache.sampleIdx (clone s.heap buf).1).map
        (Slice.bytes (clone s.heap buf).2)).rotate
        (Ring.advance kSampleCacheSize s.cache.sampleIdx) = _
    have hslots : (s.cache.sampleBuf.map (Slice.bytes (clone s.heap buf).2)).length =
        kSampleCacheSize := by
      rw [List.length_map]
      exact s.cache.sample_length
    rw [List.map_set, hbytes, ← List.append_assoc]
    exact Ring.set_keeps_last (by decide) hslots s.cache.sampleIdx_lt
      (by rw [List.length_append, List.length_replicate]; omega) hcopied.samples _

theorem Inv.clearCache (hinv : Inv s) :
    Inv { s with cache := (clearCache s.cache).2, packets := [], samples := [] } := by
  have hempty : Slice.empty.bytes s.heap = [] := bytes_of_len_zero rfl _
  refine ⟨hinv.callers, ?_, rfl, rfl, ?_, rfl, rfl⟩
  · intro d hd
    have hd : d = Slice.empty := List.eq_of_mem_replicate hd
    exact .inl (by rw [hd]; rfl)
  · show ((List.replicate kSampleCacheSize Slice.empty).map (Slice.bytes s.heap)).rotate
        s.cache.sampleIdx = _
    rw [List.map_replicate, hempty, List.rotate_replicate, List.append_nil,
      Ring.rtake_of_length_le (by rw [List.length_replicate])]

theorem inv_start : Inv start := by
  refine ⟨?_, ?_, rfl, rfl, rfl, rfl, rfl⟩
  · intro a ha
    cases ha
  · intro d hd
    have hd : d = Slice.empty := List.eq_of_mem_replicate hd
    exact .inl (by rw [hd]; rfl)

theorem inv_of_reachable (hs : cacheRuns.Reachable s) : Inv s := by
  refine System.invariant_ofStep inv_start (fun s l s' hinv hnext => ?_) hs
  cases l with
  | make content =>
    cases hnext
    have hle := s.heap.le_alloc content
    refine hinv.of_keep rfl rfl rfl ?_ ?_
    · intro d hd
      apply hd.mono hle
      intro a ha
      rcases List.mem_append.mp ha with hold | hnew
      · exact .inl hold
      · exact .inr (Nat.le_of_eq (List.mem_singleton.mp hnew).symm)
    · intro a ha
      have hlen : (s.heap.alloc content).2.arrays.length = s.heap.arrays.length + 1 :=
        List.length_append
      show a < (s.heap.alloc content).2.arrays.length
      rcases List.mem_append.mp ha with hold | hnew
      · have := hinv.callers a hold
        omega
      · have := List.mem_singleton.mp hnew
        omega
  | overwrite arr pos content =>
    obtain ⟨⟨harr, hfit⟩, rfl⟩ := enabledIf_eq_some hnext
    refine hinv.of_keep rfl rfl rfl ?_ ?_
    · intro d hd
      exact hd.store harr hfit
    · intro a ha
      rw [Heap.store_length]
      exact hinv.callers a ha
  | addPacket buf =>
    obtain ⟨⟨-, hbuf⟩, rfl⟩ := enabledIf_eq_some hnext
    exact hinv.addPacket hbuf
  | addSample buf =>
    obtain ⟨⟨-, hbuf⟩, rfl⟩ := enabledIf_eq_some hnext
    exact hinv.addSample hbuf
  | clear =>
    cases hnext
    exact hinv.clearCache

/-! ## What is sent -/

section Sending

variable {σ : Type} (h : Heap) (writeFn : σ → Bytes → σ × Option String)

/-- The slices `sendCache` passes on, in order. -/
def PacketCache.passed (p : PacketCache) : List Slice :=
  (p.sampleBuf.rotate p.sampleIdx).filter (fun d => d.len ≠ 0) ++ p.firstBuf ++
    p.recentBuf.rotate p.recentIdx

theorem sendSamples_eq (p : PacketCache) (f : Flush σ) :
    sendSamples h writeFn p f =
      ((p.sampleBuf.rotate p.sampleIdx).filter (fun d => d.len ≠ 0)).foldl
        (Flush.write h writeFn) f := by
  rw [List.foldl_filter, ← Ring.map_range_rotate p.sample_length Slice.empty, List.foldl_map]
  unfold sendSamples
  congr 1
  funext f i
  simp

theorem sendRecent_eq (p : PacketCache) (f : Flush σ) :
    sendRecent h writeFn p f =
      (p.recentBuf.rotate p.recentIdx).foldl (Flush.write h writeFn) f := by
  -- the code wraps at the capacity; while the ring grows the cursor is at zero and no index
  -- wraps, afterwards the capacity is the length
  have hwrap : ∀ i ∈ List.range p.recentBuf.length,
      p.recentBuf.getD ((p.recentIdx + i) % kPacketCacheSize) Slice.empty =
        p.recentBuf.getD ((p.recentIdx + i) % p.recentBuf.length) Slice.empty := by
    intro i hi
    have hi := List.mem_range.mp hi
    rcases Nat.lt_or_ge p.recentBuf.length kPacketCacheSize with hlt | hge
    · have hzero := p.recentIdx_zero hlt
      rw [hzero, Nat.zero_add, Nat.mod_eq_of_lt hi, Nat.mod_eq_of_lt (by omega)]
    · have hfull := Nat.le_antisymm p.recent_le hge
      rw [hfull]
  rw [← Ring.map_range_rotate rfl Slice.empty, ← List.map_congr_left hwrap, List.foldl_map]
  rfl

theorem sendCache_eq (p : PacketCache) (writer : σ) :
    sendCache h writeFn p writer = p.passed.foldl (Flush.write h writeFn) ⟨writer, 0, 0⟩ := by
  unfold sendCache PacketCache.passed
  rw [sendSamples_eq, sendRecent_eq, List.foldl_append, List.foldl_append]

/-- The loops over slices that show as many bytes as they are long. -/
theorem foldl_write {l : List Slice} (hlen : ∀ d ∈ l, (d.bytes h).length = d.len)
    (f : Flush σ) :
    l.foldl (Flush.write h writeFn) f =
      { writer := (l.map (Slice.bytes h)).foldl (fun st b => (writeFn st b).1) f.writer
        flushSize := f.flushSize + ((l.map (Slice.bytes h)).map List.length).sum
        flushCount := f.flushCount + (l.map (Slice.bytes h)).length } := by
  induction l generalizing f with
  | nil => rfl
  | cons d l ih =>
    rw [List.foldl_cons, ih (fun d hd => hlen d (List.mem_cons_of_mem _ hd))]
    have hd := hlen d List.mem_cons_self
    simp only [Flush.write, List.map_cons, List.foldl_cons, List.sum_cons, List.length_cons, hd]
    congr 1
    · omega
    · omega

end Sending

theorem Inv.mem_passed (hinv : Inv s) (hd : d ∈ s.cache.passed) : Owned s d := by
  apply hinv.owned
  simp only [PacketCache.passed, PacketCache.slices, List.mem_append, List.mem_filter,
    List.mem_rotate] at hd ⊢
  tauto

/-- The slices in order show what is due. -/
theorem Inv.passed_bytes (hinv : Inv s) : s.cache.passed.map (Slice.bytes s.heap) = s.due := by
  have hsamples : ((s.cache.sampleBuf.rotate s.cache.sampleIdx).filter (fun d => d.len ≠ 0)).map
      (Slice.bytes s.heap) =
        (s.samples.rtake kSampleCacheSize).filter (fun b => !b.isEmpty) := by
    have hfilter : ∀ d ∈ s.cache.sampleBuf.rotate s.cache.sampleIdx,
        decide (d.len ≠ 0) = !(d.bytes s.heap).isEmpty := by
      intro d hd
      have howned := hinv.owned d (List.mem_append_right _ (List.mem_rotate.mp hd))
      rw [← howned.length_bytes]
      cases d.bytes s.heap <;> rfl
    rw [List.filter_congr hfilter]
    show List.map _ (List.filter ((fun b => !b.isEmpty) ∘ Slice.bytes s.heap) _) = _
    rw [← List.filter_map, List.map_rotate, hinv.samples, Ring.filter_rtake_fill rfl]
  unfold PacketCache.passed State.due
  rw [List.map_append, List.map_append, hsamples, hinv.firsts, List.map_rotate, hinv.recents]

/-- **What the cache sends**: whatever the writer does, it is given what is due, and the
    totals are those of what it was given; `clearCache` returns the totals of all packets. -/
theorem sendCache_passes_due {s : State} (hs : cacheRuns.Reachable s) :
    (∀ (σ : Type) (writeFn : σ → Bytes → σ × Option String) (writer : σ),
      sendCache s.heap writeFn s.cache writer =
        { writer := s.due.foldl (fun st b => (writeFn st b).1) writer
          flushSize := (s.due.map List.length).sum
          flushCount := s.due.length }) ∧
      (clearCache s.cache).1 = ((s.packets.map List.length).sum, s.packets.length) := by
  have hinv := inv_of_reachable hs
  refine ⟨?_, ?_⟩
  · intro σ writeFn writer
    rw [sendCache_eq, foldl_write s.heap writeFn (fun d hd => (hinv.mem_passed hd).length_bytes),
      hinv.passed_bytes, Nat.zero_add, Nat.zero_add]
  · rw [← hinv.size, ← hinv.count]
    rfl

/-- Two packets and a sample from one buffer, which the caller overwrites in between, after
    a clear that leaves the sample cursor at one. -/
def reusedBuffer : List Label :=
  let buf : Slice := { arr := 0, off := 0, len := 2, cap := 2 }
  [.make [1, 2], .addSample buf, .clear, .addPacket buf, .overwrite 0 0 [3, 4], .addSample buf,
   .overwrite 0 1 [5], .addPacket (buf.dropFront 1), .overwrite 0 0 [6, 7]]

theorem reusedBuffer_sends_copies :
    ∃ s, cacheRuns.Reachable s ∧ s.due = [[3, 4], [1, 2], [5]] ∧
      sendCache s.heap (fun sent b => (sent ++ [b], some "write failed")) s.cache [] =
        { writer := s.due.foldl (fun sent b => sent ++ [b]) []
          flushSize := (s.due.map List.length).sum
          flushCount := s.due.length } := by
  obtain ⟨s, hrun, hdue⟩ : ∃ s, runLabels next start reusedBuffer = some s ∧
      s.due = [[3, 4], [1, 2], [5]] := exists_of_runLabels (by decide +kernel)
  have hs : cacheRuns.Reachable s := .of_runLabels (fun _ _ _ h => h) (.init rfl) hrun
  exact ⟨s, hs, hdue, (sendCache_passes_due hs).1 _ _ _⟩

end PacketCaches
