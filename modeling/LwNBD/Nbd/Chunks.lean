import LwNBD.Nbd.Wire

/-!
# Chunks

The arithmetic of the READ and WRITE loops, in natural numbers: what accepting a request
sets, what a chunk is, and what is left after it. An accepted request goes through the
loops in chunks of `bufferLen / blocksize` blocks, but for the last.
-/

namespace LwNBD

open Resumption

variable {cfg : Config} {blocksize : UInt32} {x : Vars} {q : NbdRequest}

theorem toNat_ofNat_bufferLen (cfg : Config) :
    (UInt32.ofNat cfg.bufferLen).toNat = cfg.bufferLen := by
  rw [UInt32.toNat_ofNat']
  have := cfg.bufferLen_le
  omega

/-! ### The range check -/

theorem outOfRange_eq_false_iff {exportsize : Int64} :
    outOfRange exportsize q = false ↔
      (q.offset.toNat + q.count.toNat) % 2 ^ 64 ≤ exportsize.toUInt64.toNat := by
  simp [outOfRange, UInt64.le_iff_toNat_le, UInt64.toNat_add]

theorem toNat_toUInt64_of_nonneg {e : Int64} (h : 0 ≤ e.toInt) :
    (e.toUInt64.toNat : ℤ) = e.toInt := by
  have h1 : e.toUInt64.toNat = e.toBitVec.toNat := rfl
  have h2 : e.toInt = e.toBitVec.toInt := rfl
  rw [h1]
  rw [h2] at h ⊢
  rw [BitVec.toInt_eq_toNat_cond] at h ⊢
  have := e.toBitVec.isLt
  split_ifs at h ⊢ <;> omega

@[simp] theorem stop_retry : x.stop.retry = x.retry := rfl
@[simp] theorem stop_sendflag : x.stop.sendflag = 0 := rfl
@[simp] theorem stop_blkremains : x.stop.blkremains = x.blkremains := rfl
@[simp] theorem stop_byteread : x.stop.byteread = x.byteread := rfl
@[simp] theorem stop_bufblksz : x.stop.bufblksz = x.bufblksz := rfl
@[simp] theorem stop_offset : x.stop.offset = x.offset := rfl
@[simp] theorem stop_request : x.stop.request = x.request := rfl
@[simp] theorem stop_nbdBuffer : x.stop.nbdBuffer = x.nbdBuffer := rfl

/-! ### Accepting -/

/-- What holds of the loops' variables between chunks: the bytes of a chunk are its blocks,
and the chunk fits the buffer. -/
structure Vars.Sized (cfg : Config) (blocksize : UInt32) (x : Vars) : Prop where
  /-- The bytes of a chunk are its blocks. -/
  bytes : x.byteread.toNat = x.bufblksz.toNat * blocksize.toNat
  /-- A chunk fits the buffer. -/
  fits : x.bufblksz.toNat * blocksize.toNat ≤ cfg.bufferLen
  /-- The buffer has its length. -/
  buffer : x.nbdBuffer.length = cfg.bufferLen

@[simp] theorem accept_sendflag : (x.accept cfg blocksize q).sendflag = MSG_MORE := rfl
@[simp] theorem accept_retry : (x.accept cfg blocksize q).retry = x.retry := rfl
@[simp] theorem accept_request : (x.accept cfg blocksize q).request = x.request := rfl
@[simp] theorem accept_nbdBuffer : (x.accept cfg blocksize q).nbdBuffer = x.nbdBuffer := rfl

@[simp] theorem accept_bufblksz :
    (x.accept cfg blocksize q).bufblksz.toNat = cfg.bufferLen / blocksize.toNat := by
  simp only [Vars.accept, UInt32.toNat_div, toNat_ofNat_bufferLen]

@[simp] theorem accept_blkremains :
    (x.accept cfg blocksize q).blkremains.toNat = q.count.toNat / blocksize.toNat := by
  simp [Vars.accept]

@[simp] theorem accept_offset :
    (x.accept cfg blocksize q).offset.toNat = q.offset.toNat / blocksize.toNat := by
  simp [Vars.accept]

theorem accept_sized (hx : x.nbdBuffer.length = cfg.bufferLen) :
    (x.accept cfg blocksize q).Sized cfg blocksize := by
  have hle := Nat.div_mul_le_self cfg.bufferLen blocksize.toNat
  have hlen := cfg.bufferLen_le
  refine ⟨?_, by rw [accept_bufblksz]; exact hle, hx⟩
  rw [accept_bufblksz]
  simp only [Vars.accept, UInt32.toNat_mul, UInt32.toNat_div, toNat_ofNat_bufferLen]
  omega

/-! ### A chunk -/

@[simp] theorem chunk_retry : (x.chunk blocksize).retry = x.retry := by
  simp only [Vars.chunk, Vars.markLast, Vars.shorten]; split_ifs <;> rfl

@[simp] theorem chunk_blkremains : (x.chunk blocksize).blkremains = x.blkremains := by
  simp only [Vars.chunk, Vars.markLast, Vars.shorten]; split_ifs <;> rfl

@[simp] theorem chunk_offset : (x.chunk blocksize).offset = x.offset := by
  simp only [Vars.chunk, Vars.markLast, Vars.shorten]; split_ifs <;> rfl

@[simp] theorem chunk_request : (x.chunk blocksize).request = x.request := by
  simp only [Vars.chunk, Vars.markLast, Vars.shorten]; split_ifs <;> rfl

@[simp] theorem chunk_nbdBuffer : (x.chunk blocksize).nbdBuffer = x.nbdBuffer := by
  simp only [Vars.chunk, Vars.markLast, Vars.shorten]; split_ifs <;> rfl

variable (blocksize) in
theorem shorten_bufblksz :
    (x.shorten blocksize).bufblksz.toNat = min x.blkremains.toNat x.bufblksz.toNat := by
  unfold Vars.shorten
  simp only [UInt32.lt_iff_toNat_lt]
  split_ifs with h
  · exact (Nat.min_eq_left (Nat.le_of_lt h)).symm
  · exact (Nat.min_eq_right (Nat.le_of_not_lt h)).symm

@[simp] theorem shorten_blkremains : (x.shorten blocksize).blkremains = x.blkremains := by
  unfold Vars.shorten; split_ifs <;> rfl

@[simp] theorem shorten_sendflag : (x.shorten blocksize).sendflag = x.sendflag := by
  unfold Vars.shorten; split_ifs <;> rfl

/-- A chunk is as many blocks as fit, or as remain. -/
@[simp] theorem chunk_bufblksz :
    (x.chunk blocksize).bufblksz.toNat = min x.blkremains.toNat x.bufblksz.toNat := by
  rw [← shorten_bufblksz blocksize]
  unfold Vars.chunk Vars.markLast
  split_ifs <;> rfl

/-- No more is to come when no more blocks remain than the chunk has. -/
theorem chunk_sendflag : (x.chunk blocksize).sendflag =
    if x.blkremains.toNat ≤ x.bufblksz.toNat then 0 else x.sendflag := by
  unfold Vars.chunk Vars.markLast
  simp only [UInt32.le_iff_toNat_le, shorten_bufblksz, shorten_blkremains]
  by_cases h : x.blkremains.toNat ≤ x.bufblksz.toNat
  · rw [if_pos (by omega), if_pos h, stop_sendflag]
  · rw [if_neg (by omega), if_neg h, shorten_sendflag]

theorem shorten_bytes (h : x.Sized cfg blocksize) : (x.shorten blocksize).byteread.toNat =
    (x.shorten blocksize).bufblksz.toNat * blocksize.toNat := by
  have hlen := cfg.bufferLen_le
  unfold Vars.shorten
  split_ifs with hlt
  · have hle := Nat.mul_le_mul_right blocksize.toNat (Nat.le_of_lt (UInt32.lt_iff_toNat_lt.mp hlt))
    have hfits := h.fits
    rw [UInt32.toNat_mul]
    exact Nat.mod_eq_of_lt (by omega)
  · exact h.bytes

theorem chunk_sized (h : x.Sized cfg blocksize) : (x.chunk blocksize).Sized cfg blocksize := by
  refine ⟨?_, ?_, by rw [chunk_nbdBuffer]; exact h.buffer⟩
  · have hb := shorten_bytes h
    unfold Vars.chunk Vars.markLast
    split_ifs <;> exact hb
  · rw [chunk_bufblksz]
    exact Nat.le_trans (Nat.mul_le_mul_right _ (Nat.min_le_right _ _)) h.fits

@[simp] theorem fill_retry (d : Bytes) : (x.fill d).retry = x.retry := rfl
@[simp] theorem fill_sendflag (d : Bytes) : (x.fill d).sendflag = x.sendflag := rfl
@[simp] theorem fill_blkremains (d : Bytes) : (x.fill d).blkremains = x.blkremains := rfl
@[simp] theorem fill_byteread (d : Bytes) : (x.fill d).byteread = x.byteread := rfl
@[simp] theorem fill_bufblksz (d : Bytes) : (x.fill d).bufblksz = x.bufblksz := rfl
@[simp] theorem fill_offset (d : Bytes) : (x.fill d).offset = x.offset := rfl
@[simp] theorem fill_request (d : Bytes) : (x.fill d).request = x.request := rfl
@[simp] theorem fill_nbdBuffer (d : Bytes) : (x.fill d).nbdBuffer = store x.nbdBuffer d := rfl

theorem fill_sized {d : Bytes} (h : x.Sized cfg blocksize) : (x.fill d).Sized cfg blocksize :=
  ⟨h.bytes, h.fits, by rw [fill_nbdBuffer, length_store]; exact h.buffer⟩

/-! ### After a chunk -/

@[simp] theorem advance_sendflag : (x.advance cfg).sendflag = x.sendflag := rfl
@[simp] theorem advance_retry : (x.advance cfg).retry = cfg.maxRetries := rfl
@[simp] theorem advance_bufblksz : (x.advance cfg).bufblksz = x.bufblksz := rfl
@[simp] theorem advance_byteread : (x.advance cfg).byteread = x.byteread := rfl
@[simp] theorem advance_request : (x.advance cfg).request = x.request := rfl
@[simp] theorem advance_nbdBuffer : (x.advance cfg).nbdBuffer = x.nbdBuffer := rfl

variable (cfg) in
theorem advance_blkremains (h : x.bufblksz.toNat ≤ x.blkremains.toNat) :
    (x.advance cfg).blkremains.toNat = x.blkremains.toNat - x.bufblksz.toNat := by
  simp only [Vars.advance]
  rw [UInt32.toNat_sub_of_le _ _ (by rwa [UInt32.le_iff_toNat_le])]

theorem advance_offset :
    (x.advance cfg).offset.toNat = (x.offset.toNat + x.bufblksz.toNat) % 2 ^ 64 := by
  simp [Vars.advance, UInt64.toNat_add]

/-! ### The chunks of a request -/

/-- The blocks of a chunk, but for the last. -/
def chunkBlocks (cfg : Config) (blocksize : UInt32) : ℕ := cfg.bufferLen / blocksize.toNat

/-- The blocks of an accepted request. -/
def NbdRequest.blocks (q : NbdRequest) (blocksize : UInt32) : ℕ := q.count.toNat / blocksize.toNat

/-- The blocks of chunk `i`. -/
def NbdRequest.blocksOf (q : NbdRequest) (cfg : Config) (blocksize : UInt32) (i : ℕ) : ℕ :=
  min (q.blocks blocksize - i * chunkBlocks cfg blocksize) (chunkBlocks cfg blocksize)

/-- The blocks before chunk `i`. -/
def NbdRequest.blocksBefore (q : NbdRequest) (cfg : Config) (blocksize : UInt32) (i : ℕ) : ℕ :=
  min (i * chunkBlocks cfg blocksize) (q.blocks blocksize)

/-- Where chunk `i` begins, as the code computes it. -/
def NbdRequest.offsetOf (q : NbdRequest) (cfg : Config) (blocksize : UInt32) (i : ℕ) : ℕ :=
  (q.offset.toNat / blocksize.toNat + q.blocksBefore cfg blocksize i) % 2 ^ 64

theorem blocksBefore_zero : q.blocksBefore cfg blocksize 0 = 0 := by
  rw [NbdRequest.blocksBefore, Nat.zero_mul, Nat.zero_min]

theorem blocksBefore_succ (i : ℕ) : q.blocksBefore cfg blocksize (i + 1) =
    q.blocksBefore cfg blocksize i + q.blocksOf cfg blocksize i := by
  unfold NbdRequest.blocksBefore NbdRequest.blocksOf
  rw [Nat.add_mul]
  omega

theorem blocksBefore_of_le {i : ℕ} (h : q.blocks blocksize ≤ i * chunkBlocks cfg blocksize) :
    q.blocksBefore cfg blocksize i = q.blocks blocksize := Nat.min_eq_right h

variable (cfg) in
/-- The blocks before a chunk are in the range of the request. -/
theorem blocksBefore_mul_le (blocksize : UInt32) (q : NbdRequest) (i : ℕ) :
    q.blocksBefore cfg blocksize i * blocksize.toNat ≤ q.count.toNat :=
  Nat.le_trans (Nat.mul_le_mul_right _ (Nat.min_le_right _ _)) (Nat.div_mul_le_self _ _)

/-- The variables when `i` chunks of an accepted request have been served. -/
structure Vars.Serving (cfg : Config) (blocksize : UInt32) (q : NbdRequest) (i : ℕ) (x : Vars) :
    Prop where
  /-- The next chunk begins where it should. -/
  offset : x.offset.toNat = q.offsetOf cfg blocksize i
  /-- So many blocks remain. -/
  remains : x.blkremains.toNat = q.blocks blocksize - i * chunkBlocks cfg blocksize
  /-- The next chunk has the blocks it should. -/
  size : min x.blkremains.toNat x.bufblksz.toNat = q.blocksOf cfg blocksize i

theorem accept_serving : (x.accept cfg blocksize q).Serving cfg blocksize q 0 := by
  refine ⟨?_, ?_, ?_⟩
  · rw [accept_offset, NbdRequest.offsetOf, blocksBefore_zero, Nat.add_zero, Nat.mod_eq_of_lt]
    exact Nat.lt_of_le_of_lt (Nat.div_le_self _ _) q.offset.toNat_lt
  · rw [accept_blkremains, Nat.zero_mul, Nat.sub_zero, NbdRequest.blocks]
  · rw [accept_blkremains, accept_bufblksz, NbdRequest.blocksOf, Nat.zero_mul, Nat.sub_zero]
    rfl

namespace Vars.Serving

variable {i : ℕ}

theorem chunk (h : x.Serving cfg blocksize q i) :
    (x.chunk blocksize).Serving cfg blocksize q i := by
  refine ⟨by rw [chunk_offset]; exact h.offset, by rw [chunk_blkremains]; exact h.remains, ?_⟩
  rw [chunk_blkremains, chunk_bufblksz, ← h.size]
  omega

/-- The variables matter that say where the request is. -/
theorem congr {y : Vars} (h : x.Serving cfg blocksize q i) (ho : y.offset = x.offset)
    (hr : y.blkremains = x.blkremains) (hs : y.bufblksz = x.bufblksz) :
    y.Serving cfg blocksize q i :=
  ⟨by rw [ho]; exact h.offset, by rw [hr]; exact h.remains, by rw [hr, hs]; exact h.size⟩

theorem blocks (h : x.Serving cfg blocksize q i) :
    (x.chunk blocksize).bufblksz.toNat = q.blocksOf cfg blocksize i := by
  rw [chunk_bufblksz, h.size]

/-- The next chunk is the last if no blocks are left after it. -/
theorem last (h : x.Serving cfg blocksize q i) : (x.chunk blocksize).sendflag =
    if q.blocks blocksize ≤ (i + 1) * chunkBlocks cfg blocksize then 0 else x.sendflag := by
  have hs := h.size
  have hr := h.remains
  unfold NbdRequest.blocksOf at hs
  rw [chunk_sendflag, Nat.add_mul]
  congr 1
  simp only [eq_iff_iff]
  omega

/-- When the next chunk clears `sendflag`, no blocks are left after it. -/
theorem blocks_le (h : x.Serving cfg blocksize q i) (hne : x.sendflag ≠ 0)
    (h0 : (x.chunk blocksize).sendflag = 0) :
    q.blocks blocksize ≤ (i + 1) * chunkBlocks cfg blocksize := by
  by_contra hlt
  rw [h.last, if_neg hlt] at h0
  exact hne h0

theorem advance (h : x.Serving cfg blocksize q i) {d : Bytes} :
    (((x.chunk blocksize).fill d).advance cfg).Serving cfg blocksize q (i + 1) := by
  have hs := h.size
  have hr := h.remains
  have hb := h.blocks
  have hle : ((x.chunk blocksize).fill d).bufblksz.toNat ≤
      ((x.chunk blocksize).fill d).blkremains.toNat := by
    rw [fill_bufblksz, chunk_bufblksz, fill_blkremains, chunk_blkremains]
    exact Nat.min_le_left _ _
  have hrem := advance_blkremains cfg hle
  rw [fill_bufblksz, fill_blkremains, chunk_blkremains, hb] at hrem
  have hsz : (((x.chunk blocksize).fill d).advance cfg).bufblksz.toNat =
      q.blocksOf cfg blocksize i := by
    rw [advance_bufblksz, fill_bufblksz, hb]
  refine ⟨?_, ?_, ?_⟩
  · rw [advance_offset, fill_offset, chunk_offset, h.offset, fill_bufblksz, hb, NbdRequest.offsetOf,
      NbdRequest.offsetOf, blocksBefore_succ, Nat.mod_add_mod, Nat.add_assoc]
  · rw [hrem, hr, NbdRequest.blocksOf, Nat.add_mul]
    omega
  · rw [hrem, hsz, hr, NbdRequest.blocksOf, NbdRequest.blocksOf, Nat.add_mul]
    omega

end Vars.Serving

end LwNBD
