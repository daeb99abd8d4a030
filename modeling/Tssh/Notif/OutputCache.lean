import Tssh.Output.Cache

/-! # The Output Cache of the Client

    While a notification is shown, `notifInterceptor` keeps the session's output
    in chunks of 64 KiB (`appendOutput`) and writes them afterwards without the
    cursor position requests in them (`flushOutput`).

    * **Chunks**: a `Chunk` is a slice with its capacity, and cannot hold more.
    * `appendOutput_packed`: for reads of at most 64 KiB every chunk but the last
      is full, so the chunks depend on the output only and not on the reads.
-/

open Go Pattern Output

namespace Notif

/-- `64*1024`, the capacity of a chunk. -/
def chunkSize : Nat := 64 * 1024

/-- A slice of bytes with room for `cap` of them. -/
structure Chunk where
  data : Bytes
  cap : Nat
  fits : data.length ≤ cap

/-- `make([]byte, 0, cap)`. -/
def Chunk.make (cap : Nat) : Chunk := ⟨[], cap, Nat.zero_le cap⟩

def Chunk.room (c : Chunk) : Nat := c.cap - c.data.length

/-- `append(c, data[:n]...)` with the largest `n` there is room for. -/
def Chunk.fill (c : Chunk) (data : Bytes) : Chunk where
  data := c.data ++ data.take c.room
  cap := c.cap
  fits := by
    have hfits := c.fits
    simp only [Chunk.room, List.length_append, List.length_take]
    omega

/-- The chunk the next bytes go to, and the chunks before it: the last one, or a new one if
    that is full. -/
def lastChunk (chunks : List Chunk) (data : Bytes) : List Chunk × Chunk :=
  match chunks.getLast? with
  | none => ([], .make (max data.length chunkSize))
  | some last =>
    if last.data.length = last.cap then (chunks, .make (max data.length chunkSize))
    else (chunks.dropLast, last)

/-- The loop of `appendOutput`; every round takes at least one byte, so the length of the data
    is fuel enough. -/
def appendLoop : Nat → List Chunk → Bytes → List Chunk
  | 0, chunks, _ => chunks
  | fuel + 1, chunks, data =>
    if data = [] then chunks
    else
      let (before, last) := lastChunk chunks data
      appendLoop fuel (before ++ [last.fill data]) (data.drop last.room)

def appendOutput (chunks : List Chunk) (data : Bytes) : List Chunk :=
  appendLoop data.length chunks data

/-- What `flushOutput` writes, chunk by chunk. -/
def flushOutput (chunks : List Chunk) : List Bytes :=
  (chunks.map (fun c => removeAll esc6n c.data)).filter (· ≠ [])

/-! ## The chunks of the output -/

/-- The bytes in the chunks. -/
def bytesOf (chunks : List Chunk) : List Bytes := chunks.map Chunk.data

/-- Chunks of the usual capacity, all of them full but the last. -/
structure Packed (chunks : List Chunk) : Prop where
  cap : ∀ c ∈ chunks, c.cap = chunkSize
  full : ∀ c ∈ chunks.dropLast, c.data.length = chunkSize

theorem Packed.nil : Packed [] := ⟨by simp, by simp⟩

/-- The chunk the next bytes go to has room, and putting it behind the others keeps the chunks
    packed. -/
theorem lastChunk_spec {chunks : List Chunk} {data : Bytes} (h : Packed chunks)
    (hdata : data.length ≤ chunkSize) :
    (lastChunk chunks data).2.cap = chunkSize ∧ 0 < (lastChunk chunks data).2.room ∧
      (∀ c ∈ (lastChunk chunks data).1, c.cap = chunkSize ∧ c.data.length = chunkSize) ∧
      (bytesOf (lastChunk chunks data).1).flatten ++ (lastChunk chunks data).2.data =
        (bytesOf chunks).flatten := by
  have hmax : max data.length chunkSize = chunkSize := max_eq_right hdata
  have hsize : 0 < (Chunk.make chunkSize).room := by decide
  rcases List.eq_nil_or_concat chunks with rfl | ⟨before, last, rfl⟩
  · have hnew : lastChunk [] data = ([], .make chunkSize) := by simp [lastChunk, hmax]
    rw [hnew]
    exact ⟨rfl, hsize, by simp, rfl⟩
  · rw [List.concat_eq_append] at h ⊢
    have hcap : last.cap = chunkSize := h.cap last (by simp)
    have hfits := last.fits
    have hbefore : ∀ c ∈ before, c.cap = chunkSize ∧ c.data.length = chunkSize := by
      intro c hc
      exact ⟨h.cap c (by simp [hc]), h.full c (by simpa using hc)⟩
    by_cases hfull : last.data.length = last.cap
    · have hlast : lastChunk (before ++ [last]) data = (before ++ [last], .make chunkSize) := by
        simp [lastChunk, hfull, hmax]
      rw [hlast]
      refine ⟨rfl, hsize, ?_, by simp [Chunk.make]⟩
      intro c hc
      rcases List.mem_append.mp hc with hc | hc
      · exact hbefore c hc
      · rw [List.mem_singleton.mp hc]
        exact ⟨hcap, hfull.trans hcap⟩
    · have hlast : lastChunk (before ++ [last]) data = (before, last) := by
        simp [lastChunk, hfull]
      rw [hlast]
      refine ⟨hcap, ?_, hbefore, by simp [bytesOf]⟩
      show 0 < last.cap - last.data.length
      omega

/-- **The loop of `appendOutput`** puts all data behind the bytes of the chunks and keeps them
    packed. -/
theorem appendLoop_spec {fuel : Nat} {chunks : List Chunk} {data : Bytes} (h : Packed chunks)
    (hdata : data.length ≤ chunkSize) (hfuel : data.length ≤ fuel) :
    Packed (appendLoop fuel chunks data) ∧
      (bytesOf (appendLoop fuel chunks data)).flatten = (bytesOf chunks).flatten ++ data := by
  induction fuel generalizing chunks data with
  | zero =>
    have hnil : data = [] := List.eq_nil_of_length_eq_zero (by omega)
    exact ⟨h, by simp [appendLoop, hnil]⟩
  | succ fuel ih =>
    rw [appendLoop]
    split
    · next hnil => exact ⟨h, by simp [hnil]⟩
    · obtain ⟨hcap, hroom, hbefore, hbytes⟩ := lastChunk_spec h hdata
      generalize lastChunk chunks data = next at hcap hroom hbefore hbytes ⊢
      obtain ⟨before, last⟩ := next
      simp only at hcap hroom hbefore hbytes ⊢
      have hpacked : Packed (before ++ [last.fill data]) := by
        constructor
        · intro c hc
          rcases List.mem_append.mp hc with hc | hc
          · exact (hbefore c hc).1
          · rw [List.mem_singleton.mp hc]
            exact hcap
        · intro c hc
          rw [List.dropLast_concat] at hc
          exact (hbefore c hc).2
      have hshort : (data.drop last.room).length ≤ fuel := by
        rw [List.length_drop]
        omega
      have hsmall : (data.drop last.room).length ≤ chunkSize := by
        rw [List.length_drop]
        omega
      obtain ⟨hrest, hflat⟩ := ih hpacked hsmall hshort
      refine ⟨hrest, hflat.trans ?_⟩
      rw [← hbytes]
      simp [bytesOf, Chunk.fill, List.append_assoc]

/-- The chunks after any reads of at most 64 KiB. -/
theorem appendOutput_packed {chunks : List Chunk} {reads : List Bytes} (h : Packed chunks)
    (hreads : ∀ r ∈ reads, r.length ≤ chunkSize) :
    Packed (reads.foldl appendOutput chunks) ∧
      (bytesOf (reads.foldl appendOutput chunks)).flatten =
        (bytesOf chunks).flatten ++ reads.flatten := by
  induction reads generalizing chunks with
  | nil => exact ⟨h, by simp⟩
  | cons r reads ih =>
    obtain ⟨hpacked, hflat⟩ := appendLoop_spec h (hreads r (by simp)) (le_refl r.length)
    obtain ⟨hrest, hall⟩ := ih hpacked (fun r' hr' => hreads r' (List.mem_cons_of_mem r hr'))
    refine ⟨hrest, hall.trans ?_⟩
    rw [hflat, List.flatten_cons, List.append_assoc]

theorem flushOutput_flatten (chunks : List Chunk) :
    (flushOutput chunks).flatten = (bytesOf chunks).flatMap (removeAll esc6n) := by
  rw [flushOutput, bytesOf, List.flatMap_map]
  exact (List.flatten_filter_ne_nil).trans List.flatMap_def.symm

/-- **What the client's cache removes**: for reads of at most 64 KiB, every cursor position
    request if and only if none lies across a multiple of 64 KiB. -/
theorem flushOutput_eq_iff {reads : List Bytes} (hreads : ∀ r ∈ reads, r.length ≤ chunkSize) :
    (flushOutput (reads.foldl appendOutput [])).flatten = removeAll esc6n reads.flatten ↔
      ∀ k, ¬ Straddles esc6n (reads.flatten.take (chunkSize * k))
        (reads.flatten.drop (chunkSize * k)) := by
  obtain ⟨hpacked, hflat⟩ := appendOutput_packed Packed.nil hreads
  have hbytes : (bytesOf (reads.foldl appendOutput [])).flatten = reads.flatten := by
    simpa [bytesOf] using hflat
  rw [flushOutput_flatten, ← hbytes]
  apply flatMap_removeAll_blocks_iff esc6n_unbordered esc6n_ne_nil
  · intro p hp
    obtain ⟨c, hc, rfl⟩ := List.mem_map.mp hp
    exact (hpacked.cap c hc) ▸ c.fits
  · intro p hp
    rw [bytesOf, ← List.map_dropLast] at hp
    obtain ⟨c, hc, rfl⟩ := List.mem_map.mp hp
    exact hpacked.full c hc

end Notif
