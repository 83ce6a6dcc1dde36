import LwNBD.Nbd.Requests
import LwNBD.Nbd.Sample

/-!
# Acknowledged writes

What a client may rely on that is told that its WRITE succeeded: that the bytes it sent are
where it wanted them, and that nothing else was written. The code counts in blocks: it
divides the offset and the count by the block size, and drops the remainders. An aligned
WRITE is written whole; any other is acknowledged all the same.

## What is proved

* `round_stored` — a WRITE that is acknowledged was accepted, and all its blocks were
  written, in chunks, one after the other from where the division puts them (`Stored`).
* `stored_complete_iff` — this is a complete write if and only if it is empty, or the
  request is aligned and no chunk begins past the last block there is.
* `acknowledged_write_complete_iff` — so an acknowledged WRITE is a complete write, whatever
  the plugin and the transport do, if and only if it is so or cannot be acknowledged.
-/

namespace LwNBD

open Resumption

/-! ### What is to be shown -/

/-- The data received into `nbd_buffer`. -/
def dataBytes (h : List Ev) : Bytes := h.flatMap fun
  | ⟨.recv _ .nbdBuffer _, r⟩ => r.data
  | _ => []

@[simp] theorem dataBytes_append (h h' : List Ev) :
    dataBytes (h ++ h') = dataBytes h ++ dataBytes h' :=
  List.flatMap_append

/-- The request was answered with success. -/
def Acked (q : NbdRequest) (h : List Ev) : Prop :=
  ∃ sock flags k, (⟨.send sock .reply (simpleReply NBD_SUCCESS q.handle) flags, k⟩ : Ev) ∈ h

/-- A WRITE is complete: every byte of its range was written, and nothing else was handed
to the plugin. The bytes of a WRITE are those that were received for it. -/
structure WriteComplete (blocksize : UInt32) (q : NbdRequest) (h : List Ev) : Prop where
  /-- Every byte of the range was in a write that succeeded. -/
  covered : ∀ i < q.count.toNat, ∃ p handle buf count offset,
    (⟨.pwrite p handle buf count offset, (0 : ℤ)⟩ : Ev) ∈ h ∧
      offset.toNat * blocksize.toNat ≤ q.offset.toNat + i ∧
      q.offset.toNat + i < (offset.toNat + count.toNat) * blocksize.toNat
  /-- Every byte of a write is a byte of the range, and the one that was received for it. -/
  payload : ∀ p handle buf count offset r, (⟨.pwrite p handle buf count offset, r⟩ : Ev) ∈ h →
    ∀ j < count.toNat * blocksize.toNat,
      q.offset.toNat ≤ offset.toNat * blocksize.toNat + j ∧
      offset.toNat * blocksize.toNat + j < q.offset.toNat + q.count.toNat ∧
      ∃ b, buf[j]? = some b ∧
        (dataBytes h)[offset.toNat * blocksize.toNat + j - q.offset.toNat]? = some b

/-- The request is of whole blocks, and the first block of no chunk wraps round. -/
structure Exact (cfg : Config) (blocksize : UInt32) (q : NbdRequest) : Prop where
  /-- It begins with a block. -/
  offset : blocksize.toNat ∣ q.offset.toNat
  /-- It ends with a block. -/
  count : blocksize.toNat ∣ q.count.toNat
  /-- A block that a chunk begins with has a number in `uint64_t`. -/
  chunks : ∀ i, i * chunkBlocks cfg blocksize < q.blocks blocksize →
    q.offset.toNat / blocksize.toNat + i * chunkBlocks cfg blocksize < 2 ^ 64

/-! ### The chunks that were stored -/

variable {cfg : Config} {blocksize : UInt32} {q : NbdRequest} {i : ℕ} {h : List Ev}

/-- The first `i` chunks of a WRITE were received, and written. -/
structure Stored (cfg : Config) (blocksize : UInt32) (q : NbdRequest) (i : ℕ) (h : List Ev) :
    Prop where
  /-- Their bytes were received. -/
  received : (dataBytes h).length = q.blocksBefore cfg blocksize i * blocksize.toNat
  /-- Each was written. -/
  each : ∀ k < i, ∃ p handle buf count offset, (⟨.pwrite p handle buf count offset, (0 : ℤ)⟩ : Ev) ∈
    h ∧ offset.toNat = q.offsetOf cfg blocksize k ∧ count.toNat = q.blocksOf cfg blocksize k
  /-- Nothing else was written. -/
  only : ∀ p handle buf count offset r, (⟨.pwrite p handle buf count offset, r⟩ : Ev) ∈ h → ∃ k < i,
    offset.toNat = q.offsetOf cfg blocksize k ∧ count.toNat = q.blocksOf cfg blocksize k ∧
    ∀ j < count.toNat * blocksize.toNat, ∃ b, buf[j]? = some b ∧
      (dataBytes h)[q.blocksBefore cfg blocksize k * blocksize.toNat + j]? = some b

theorem stored_zero (hp : ∀ p handle buf count offset, Call.pwrite p handle buf count offset ∉
      calls h)
    (hr : dataBytes h = []) : Stored cfg blocksize q 0 h := by
  refine ⟨by rw [hr, blocksBefore_zero, Nat.zero_mul]; rfl, by simp, ?_⟩
  intro p handle buf count offset r hmem
  exact absurd (List.mem_map_of_mem hmem) (hp p handle buf count offset)

theorem Stored.step (hs : Stored cfg blocksize q i h) {sock : ℤ} {len : ℕ}
    {r : Recvd len} {p : Plugin} {handle : Handle} {buf : Bytes} {count : UInt32} {offset : UInt64}
    (ho : offset.toNat = q.offsetOf cfg blocksize i) (hn : count.toNat = q.blocksOf cfg blocksize i)
    (hlen : r.data.length = count.toNat * blocksize.toNat)
    (hbuf : ∀ j < r.data.length, buf[j]? = r.data[j]?) : Stored cfg blocksize q (i + 1)
      (h ++ [⟨.recv sock .nbdBuffer len, r⟩, ⟨.pwrite p handle buf count offset, (0 : ℤ)⟩]) := by
  have hdata :
      dataBytes (h ++ [⟨.recv sock .nbdBuffer len, r⟩,
      ⟨.pwrite p handle buf count offset, (0 : ℤ)⟩]) = dataBytes h ++ r.data := by
    rw [dataBytes_append]
    simp [dataBytes]
  refine ⟨?_, ?_, ?_⟩
  · rw [hdata, List.length_append, hs.received, hlen, hn, blocksBefore_succ, Nat.add_mul]
  · intro k hk
    by_cases hki : k = i
    · subst hki
      exact ⟨p, handle, buf, count, offset, by simp, ho, hn⟩
    · obtain ⟨p', handle', buf', count', offset', hmem, h'⟩ := hs.each k (by omega)
      exact ⟨p', handle', buf', count', offset', List.mem_append_left _ hmem, h'⟩
  · intro p' handle' buf' count' offset' r' hmem
    rw [hdata]
    rcases List.mem_append.mp hmem with hmem | hmem
    · obtain ⟨k, hk, ho', hn', hb⟩ := hs.only p' handle' buf' count' offset' r' hmem
      refine ⟨k, by omega, ho', hn', fun j hj => ?_⟩
      obtain ⟨b, h₁, h₂⟩ := hb j hj
      refine ⟨b, h₁, ?_⟩
      rw [List.getElem?_append_left (List.getElem?_eq_some_iff.mp h₂).1]
      exact h₂
    · simp only [List.mem_cons, Sigma.mk.injEq, reduceCtorEq, false_and, false_or, List.not_mem_nil,
        or_false, Call.pwrite.injEq] at hmem
      obtain ⟨⟨rfl, rfl, rfl, rfl, rfl⟩, -⟩ := hmem
      refine ⟨i, by omega, ho, hn, fun j hj => ?_⟩
      have hj' : j < r.data.length := by omega
      refine ⟨r.data[j], by rw [hbuf j hj', List.getElem?_eq_getElem hj'], ?_⟩
      rw [List.getElem?_append_right (by rw [hs.received]; omega), hs.received,
        Nat.add_sub_cancel_left, List.getElem?_eq_getElem hj']

/-! ### When what was stored is a complete write -/

theorem blocksBefore_of_lt (hlt : i * chunkBlocks cfg blocksize < q.blocks blocksize) :
    q.blocksBefore cfg blocksize i = i * chunkBlocks cfg blocksize :=
  Nat.min_eq_left (Nat.le_of_lt hlt)

theorem blocks_lt : q.blocks blocksize < 2 ^ 32 :=
  Nat.lt_of_le_of_lt (Nat.div_le_self _ _) q.count.toNat_lt

/-- A chunk that has blocks begins before the last. -/
theorem lt_blocks_of_blocksOf (h : 0 < q.blocksOf cfg blocksize i) :
    i * chunkBlocks cfg blocksize < q.blocks blocksize := by
  unfold NbdRequest.blocksOf at h
  omega

theorem WriteComplete.aligned (hc : WriteComplete blocksize q h)
    (hne : q.count.toNat ≠ 0) :
    blocksize.toNat ∣ q.offset.toNat ∧ blocksize.toNat ∣ q.count.toNat := by
  have hfirst : blocksize.toNat ∣ q.offset.toNat := by
    obtain ⟨p, handle, buf, n, o, hmem, hlo, hhi⟩ := hc.covered 0 (by omega)
    rw [Nat.add_mul] at hhi
    have hj := (hc.payload _ _ _ _ _ _ hmem 0 (by omega)).1
    exact ⟨o.toNat, by rw [Nat.mul_comm]; omega⟩
  refine ⟨hfirst, ?_⟩
  obtain ⟨p, handle, buf, n, o, hmem, hlo, hhi⟩ := hc.covered (q.count.toNat - 1) (by omega)
  rw [Nat.add_mul] at hhi
  have hj := (hc.payload _ _ _ _ _ _ hmem (n.toNat * blocksize.toNat - 1) (by omega)).2.1
  have hsum : blocksize.toNat ∣ q.offset.toNat + q.count.toNat :=
    ⟨o.toNat + n.toNat, by rw [Nat.mul_comm, Nat.add_mul]; omega⟩
  exact (Nat.dvd_add_right hfirst).mp hsum

/-- A chunk that has blocks was stored, when all of the request's blocks were. -/
theorem lt_of_blocks_le (hall : q.blocks blocksize ≤ i * chunkBlocks cfg blocksize) {k : ℕ}
    (hk : k * chunkBlocks cfg blocksize < q.blocks blocksize) : k < i :=
  Nat.lt_of_mul_lt_mul_right (Nat.lt_of_lt_of_le hk hall)

/-- The number of a chunk's first block is a sum that does not wrap when the plugin was given it
for bytes at or after the request's. -/
theorem lt_of_offsetOf (hoff : blocksize.toNat ∣ q.offset.toNat) (h1 : 1 ≤ blocksize.toNat) {k : ℕ}
    (hk : k * chunkBlocks cfg blocksize < q.blocks blocksize)
    (hle : q.offset.toNat ≤ q.offsetOf cfg blocksize k * blocksize.toNat) :
    q.offset.toNat / blocksize.toNat + k * chunkBlocks cfg blocksize < 2 ^ 64 := by
  rw [← Nat.div_mul_cancel hoff] at hle
  have hle := Nat.le_of_mul_le_mul_right hle h1
  rw [NbdRequest.offsetOf, blocksBefore_of_lt hk] at hle
  have hlt : q.offset.toNat / blocksize.toNat < 2 ^ 64 :=
    Nat.lt_of_le_of_lt (Nat.div_le_self _ _) q.offset.toNat_lt
  have hm : q.blocks blocksize < 2 ^ 32 := blocks_lt
  by_contra hge
  -- a sum that wraps is less than its first term, and the chunk would lie before the request
  have hmod : (q.offset.toNat / blocksize.toNat + k * chunkBlocks cfg blocksize) % 2 ^ 64 =
      q.offset.toNat / blocksize.toNat + k * chunkBlocks cfg blocksize - 2 ^ 64 := by omega
  omega

/-- The chunks of an exact request are where its bytes are. -/
theorem Exact.offsetOf_mul (hx : Exact cfg blocksize q) {k : ℕ}
    (hk : k * chunkBlocks cfg blocksize < q.blocks blocksize) :
    q.offsetOf cfg blocksize k * blocksize.toNat =
      q.offset.toNat + q.blocksBefore cfg blocksize k * blocksize.toNat := by
  rw [NbdRequest.offsetOf, blocksBefore_of_lt hk, Nat.mod_eq_of_lt (hx.chunks k hk), Nat.add_mul,
    Nat.div_mul_cancel hx.offset]

/-- A complete write that was stored is empty, or exact. -/
theorem WriteComplete.empty_or_exact (hc : WriteComplete blocksize q h) (h1 : 1 ≤ blocksize.toNat)
    (hB : 0 < chunkBlocks cfg blocksize) (hs : Stored cfg blocksize q i h)
    (hall : q.blocks blocksize ≤ i * chunkBlocks cfg blocksize) :
    q.count = 0 ∨ Exact cfg blocksize q := by
  by_cases hne : q.count = 0
  · exact .inl hne
  obtain ⟨hoff, hcount⟩ := hc.aligned fun h0 => hne (UInt32.toNat_inj.mp (by simpa using h0))
  refine .inr ⟨hoff, hcount, fun k hk => ?_⟩
  obtain ⟨p, handle, buf, n, o, hmem, ho, hn⟩ := hs.each k (lt_of_blocks_le hall hk)
  have hpos : 0 < n.toNat := by
    rw [hn, NbdRequest.blocksOf]
    omega
  have hle := (hc.payload _ _ _ _ _ _ hmem 0 (Nat.mul_pos hpos h1)).1
  rw [Nat.add_zero, ho] at hle
  exact lt_of_offsetOf hoff h1 hk hle

/-- Nothing is stored for an empty request, and it is complete. -/
theorem Stored.complete_of_empty (hs : Stored cfg blocksize q i h) (hz : q.count = 0) :
    WriteComplete blocksize q h := by
  have hz' : q.count.toNat = 0 := by
    rw [hz]
    rfl
  have hm : q.blocks blocksize = 0 := by rw [NbdRequest.blocks, hz', Nat.zero_div]
  refine ⟨fun j hj => by omega, ?_⟩
  intro p handle buf n o r hmem j hj
  obtain ⟨k, hk, ho, hn, -⟩ := hs.only p handle buf n o r hmem
  rw [hn, NbdRequest.blocksOf, hm, Nat.zero_sub, Nat.zero_min, Nat.zero_mul] at hj
  omega

/-- The chunk that a byte of an exact request lies in was written with it. -/
theorem Stored.covered_of_exact (hs : Stored cfg blocksize q i h) (h1 : 1 ≤ blocksize.toNat)
    (hB : 0 < chunkBlocks cfg blocksize)
    (hall : q.blocks blocksize ≤ i * chunkBlocks cfg blocksize) (hx : Exact cfg blocksize q)
    {j : ℕ} (hj : j < q.count.toNat) :
    ∃ p handle buf n o, (⟨.pwrite p handle buf n o, (0 : ℤ)⟩ : Ev) ∈ h ∧
      o.toNat * blocksize.toNat ≤ q.offset.toNat + j ∧
      q.offset.toNat + j < (o.toNat + n.toNat) * blocksize.toNat := by
  have hcount : q.blocks blocksize * blocksize.toNat = q.count.toNat := Nat.div_mul_cancel hx.count
  have hd : j / blocksize.toNat < q.blocks blocksize := by
    rw [Nat.div_lt_iff_lt_mul h1, hcount]
    exact hj
  have hk : j / blocksize.toNat / chunkBlocks cfg blocksize * chunkBlocks cfg blocksize <
      q.blocks blocksize := Nat.lt_of_le_of_lt (Nat.div_mul_le_self _ _) hd
  obtain ⟨p, handle, buf, n, o, hmem, ho, hn⟩ := hs.each _ (lt_of_blocks_le hall hk)
  refine ⟨p, handle, buf, n, o, hmem, ?_, ?_⟩
  · rw [ho, hx.offsetOf_mul hk, blocksBefore_of_lt hk]
    exact Nat.add_le_add_left (Nat.le_trans (Nat.mul_le_mul_right _ (Nat.div_mul_le_self _ _))
      (Nat.div_mul_le_self _ _)) _
  · rw [Nat.add_mul, ho, hx.offsetOf_mul hk, hn, Nat.add_assoc, ← Nat.add_mul, ← blocksBefore_succ]
    refine Nat.add_lt_add_left ?_ _
    rw [← Nat.div_lt_iff_lt_mul h1, NbdRequest.blocksBefore, Nat.lt_min]
    exact ⟨Nat.lt_mul_of_div_lt (Nat.lt_succ_self _) hB, hd⟩

/-- An exact request that was stored is complete. -/
theorem Stored.complete_of_exact (hs : Stored cfg blocksize q i h) (h1 : 1 ≤ blocksize.toNat)
    (hB : 0 < chunkBlocks cfg blocksize)
    (hall : q.blocks blocksize ≤ i * chunkBlocks cfg blocksize) (hx : Exact cfg blocksize q) :
    WriteComplete blocksize q h := by
  refine ⟨fun j hj => hs.covered_of_exact h1 hB hall hx hj, ?_⟩
  intro p handle buf n o r hmem j hj
  obtain ⟨k, hk, ho, hn, hb⟩ := hs.only p handle buf n o r hmem
  have hpos : 0 < q.blocksOf cfg blocksize k := by
    rw [← hn]
    exact Nat.pos_of_ne_zero fun h0 => by rw [h0, Nat.zero_mul] at hj; omega
  have hstart := hx.offsetOf_mul (lt_blocks_of_blocksOf hpos)
  have hend : (q.blocksBefore cfg blocksize k + q.blocksOf cfg blocksize k) * blocksize.toNat ≤
      q.count.toNat := by
    rw [← blocksBefore_succ]
    exact blocksBefore_mul_le cfg blocksize q (k + 1)
  obtain ⟨b, h₁, h₂⟩ := hb j hj
  rw [hn] at hj
  rw [Nat.add_mul] at hend
  rw [ho, hstart]
  refine ⟨by omega, by omega, b, h₁, ?_⟩
  rw [Nat.add_assoc, Nat.add_sub_cancel_left]
  exact h₂

/-- What was stored is a complete write if and only if the request is empty or exact. -/
theorem stored_complete_iff (h1 : 1 ≤ blocksize.toNat) (hB : 0 < chunkBlocks cfg blocksize)
    (hs : Stored cfg blocksize q i h)
    (hall : q.blocks blocksize ≤ i * chunkBlocks cfg blocksize) :
    WriteComplete blocksize q h ↔ q.count = 0 ∨ Exact cfg blocksize q := by
  constructor
  · intro hc
    exact hc.empty_or_exact h1 hB hs hall
  · intro hq
    cases hq with
    | inl hz => exact hs.complete_of_empty hz
    | inr hx => exact hs.complete_of_exact h1 hB hall hx

/-! ### A round -/

/-- No reply was sent. -/
def Unanswered (h : List Ev) : Prop :=
  ∀ sock buf flags k, (⟨.send sock .reply buf flags, k⟩ : Ev) ∉ h

theorem Unanswered.not_acked (hu : Unanswered h) : ¬ Acked q h :=
  fun ⟨sock, flags, k, hmem⟩ => hu sock _ flags k hmem

theorem Unanswered.append {t : List Ev} (hu : Unanswered h) (ht : Unanswered t) :
    Unanswered (h ++ t) := by
  intro sock buf flags k hmem
  rcases List.mem_append.mp hmem with hmem | hmem
  · exact hu _ _ _ _ hmem
  · exact ht _ _ _ _ hmem

/-- The first reply tells whether the request was answered with success. -/
theorem Unanswered.acked_concat (hu : Unanswered h) {sock : ℤ} {e : UInt32} {k : Sent _}
    (ha : Acked q (h ++ [⟨.send sock .reply (simpleReply e q.handle) 0, k⟩])) :
    e = NBD_SUCCESS := by
  obtain ⟨sock', flags', k', hmem⟩ := ha
  rcases List.mem_append.mp hmem with hmem | hmem
  · exact absurd hmem (hu _ _ _ _)
  · rw [List.mem_singleton] at hmem
    injection hmem with hcall
    injection hcall with _ _ hbuf
    exact (simpleReply_inj hbuf).1.symm

/-- A reply changes nothing about what was stored. -/
theorem Stored.concat_send (hs : Stored cfg blocksize q i h) {sock : ℤ} {obj : Obj}
    {buf : Bytes} {flags : ℤ} {k : Sent buf.length} :
    Stored cfg blocksize q i (h ++ [⟨.send sock obj buf flags, k⟩]) := by
  have hdata : dataBytes (h ++ [⟨.send sock obj buf flags, k⟩]) = dataBytes h := by
    rw [dataBytes_append]
    exact List.append_nil _
  refine ⟨by rw [hdata]; exact hs.received, fun k hk => ?_, fun p handle buf' n o r hmem => ?_⟩
  · obtain ⟨p, handle, buf', n, o, hmem, h'⟩ := hs.each k hk
    exact ⟨p, handle, buf', n, o, List.mem_append_left _ hmem, h'⟩
  · rw [hdata]
    refine hs.only p handle buf' n o r ?_
    simpa using hmem

variable {σ : Type} {env : Env Call Resp σ} {fuel : ℕ} {c : ReqHead σ} {ctx : ContextNbd}

/-- The chunk that was received is what is handed to the plugin. -/
theorem fill_getElem? {x : Vars} {len : ℕ} {r : Recvd len} (hx : x.Ok cfg blocksize)
    (hlen : len = x.byteread.toNat) :
    ∀ j < r.data.length, (x.fill r.data).nbdBuffer[j]? = r.data[j]? := by
  intro j hj
  have hle := r.data_le
  have hmax := hx.byteread_le
  exact getElem?_store (by rw [hx.buffer]; omega) hj

/-- A WRITE in progress: it was not answered, and unless it has failed it was accepted, and its
chunks so far were stored. -/
structure Storing (cfg : Config) (ctx : ContextNbd) (q : NbdRequest) (x : Vars)
    (e : UInt32) (h : List Ev) : Prop where
  /-- It was not answered. -/
  unanswered : Unanswered h
  /-- Its chunks, all of them when `sendflag` is clear. -/
  stored : e = NBD_SUCCESS → writeError ctx q = NBD_SUCCESS ∧
    ∃ i, x.Serving cfg ctx.minimumBlockSize q i ∧ Stored cfg ctx.minimumBlockSize q i h ∧
      (x.sendflag = 0 → Writable ctx ∧ q.blocks ctx.minimumBlockSize ≤ i *
      chunkBlocks cfg ctx.minimumBlockSize)

/-- A WRITE that was accepted, and all of whose blocks were stored. -/
structure StoredWhole (cfg : Config) (ctx : ContextNbd) (q : NbdRequest) (h : List Ev) : Prop where
  /-- The plugin can write. -/
  writable : Writable ctx
  /-- The checks were passed. -/
  accepted : writeError ctx q = NBD_SUCCESS
  /-- The chunks reach the end of the range. -/
  stored : ∃ i, q.blocks ctx.minimumBlockSize ≤ i * chunkBlocks cfg ctx.minimumBlockSize ∧
    Stored cfg ctx.minimumBlockSize q i h

/-- The chunks of a WRITE are stored one after the other, and it is answered after the last. -/
theorem storing_rules {s : Shared} : WriteRules env s cfg s.ctx.minimumBlockSize
    (Post.thenReply env q.handle fun _ _ _ h => Acked q h → StoredWhole cfg s.ctx q h)
    (fun x e _ h => Storing cfg s.ctx q x e h) where
  leave := by
    rintro x e w h - hJ h0 k w₁ - ha
    obtain ⟨hacc, i, -, hs, hlast⟩ := hJ.stored (hJ.unanswered.acked_concat ha)
    exact ⟨(hlast h0).1, hacc, i, (hlast h0).2, hs.concat_send⟩
  null := by
    rintro x e w h r w₁ - hJ - - - - ha
    exact absurd ha (hJ.unanswered.append (by simp [Unanswered])).not_acked
  written := by
    rintro x e w h p r w₁ k w₂ hx hJ hne hp hw - hret z - rfl
    refine ⟨hJ.unanswered.append (by simp [Unanswered]), fun he => ?_⟩
    obtain ⟨hacc, i, hserv, hs, -⟩ := hJ.stored he
    have hy := hx.chunk
    have hlen : r.data.length = (x.chunk s.ctx.minimumBlockSize).byteread.toNat := by
      have := r.ret_le
      have := r.data_le
      omega
    refine ⟨hacc, i + 1, hserv.advance, ?_, fun h0 => ⟨⟨p, hp, hw⟩, hserv.blocks_le hne h0⟩⟩
    refine hs.step ?_ ?_ (hlen.trans hy.bytes) (fill_getElem? hy rfl)
    · exact hserv.chunk.offset
    · exact hserv.blocks
  failed := by
    rintro x e w h p r w₁ k w₂ - hJ - - - - - z - -
    exact ⟨hJ.unanswered.append (by simp [Unanswered]), fun he => absurd he (by decide)⟩
  cut := by
    rintro x e w h r w₁ - hJ - - -
    exact ⟨hJ.unanswered.append (by simp [Unanswered]), fun he => absurd he (by decide)⟩

variable (fuel) in
/-- A WRITE that is acknowledged was accepted, and all its blocks were stored. -/
theorem round_stored (hb : c.mem.ctx.minimumBlockSize ≠ 0)
    (hc : c.x.Ok cfg c.mem.ctx.minimumBlockSize) (hq : requestAt env c = some q)
    (ht : q.type = NBD_CMD_WRITE) :
    wp env (serveIn cfg fuel c.mem c.x) (fun _ _ _ h => Acked q h → StoredWhole cfg c.mem.ctx q h)
    c.mem c.env := by
  have hhead : Unanswered (headerAt env c q) := by intro sock buf flags k; simp [headerAt]
  have hstart : Stored cfg c.mem.ctx.minimumBlockSize q 0 (headerAt env c q) :=
    stored_zero (by simp [headerAt]) (by simp [headerAt, dataBytes])
  have H : RoundRules env cfg c.mem.ctx.minimumBlockSize c q
      (fun _ _ _ h => Acked q h → StoredWhole cfg c.mem.ctx q h) (fun _ _ _ => False)
      (fun x e _ h => Storing cfg c.mem.ctx q x e h) := by
    refine RoundRules.of_write ht storing_rules (fun hr => ?_) (fun hr _ => ?_)
      (fun _ hb' => absurd hb' hb)
    · exact ⟨hhead, fun he => absurd he hr⟩
    · refine ⟨hhead, fun _ => ⟨hr, 0, accept_serving, hstart, fun h0 => ?_⟩⟩
      rw [accept_sendflag] at h0
      exact absurd h0 (by decide)
  exact H.round hq (fun _ _ _ _ hJ => hJ.elim)
    (fun _ _ _ _ _ hJ ha => absurd ha hJ.unanswered.not_acked) hc

/-! ### A plugin and a client for which a WRITE is acknowledged -/

/-- A client that sends a WRITE of zeroes. -/
def writer (q : NbdRequest) : Wire Unit := ⟨q.toBytes ++ List.replicate q.count.toNat 0, [], ()⟩

/-- With a plugin that writes and data that suffice, every chunk is written, and the WRITE
acknowledged. -/
theorem writer_rules {s : Shared} (hw : Writable s.ctx) :
    WriteRules (wire quiet) s cfg s.ctx.minimumBlockSize
    (Post.thenReply (wire quiet) q.handle fun _ _ _ h => Acked q h)
    (fun x e w _ => e = NBD_SUCCESS ∧
      (x.sendflag ≠ 0 → x.blkremains.toNat * s.ctx.minimumBlockSize.toNat ≤ w.input.length)) where
  leave := by
    rintro x e w h - ⟨rfl, -⟩ - k w₁ -
    exact ⟨_, _, k, List.mem_append_right _ (.head _)⟩
  null := by
    rintro x e w h r w₁ - - - hp - -
    obtain ⟨p, hp', hw'⟩ := hw
    exact absurd (hp p hp') (by simp [hw'])
  written := by
    rintro x e w h p r w₁ k w₂ hx ⟨rfl, hJ⟩ hne - - hrecv hret z hk -
    refine ⟨rfl, fun _ => ?_⟩
    have hbytes : _ + (z.advance cfg).blkremains.toNat * _ = _ := hx.chunk_bytes
    have hJ := hJ hne
    obtain ⟨-, -, rfl⟩ := wire_recv_eq hrecv (by omega)
    rw [(wire_host_eq hk rfl rfl).2.1, List.length_drop]
    omega
  failed := by
    rintro x e w h p r w₁ k w₂ - - - - - - - z hk hne
    exact absurd (congrArg Prod.fst (wire_host_eq hk rfl rfl).1).symm hne
  cut := by
    rintro x e w h r w₁ hx ⟨rfl, hJ⟩ hne hrecv hret
    have hbytes := hx.chunk_bytes (d := r.data)
    have hJ := hJ hne
    exact absurd (wire_recv_eq hrecv (by omega)).1 hret

/-- A WRITE that is accepted is acknowledged, if all goes well. -/
theorem writer_acked {s : Shared} (h1 : 1 ≤ s.ctx.minimumBlockSize.toNat)
    (h2 : s.ctx.minimumBlockSize.toNat ≤ cfg.bufferLen) (hm : q.magic = NBD_REQUEST_MAGIC)
    (ht : q.type = NBD_CMD_WRITE) (hw : Writable s.ctx) (hr : writeError s.ctx q = NBD_SUCCESS) :
    requestAt (wire quiet) (firstHead (wire quiet) cfg s (writer q)) = some q ∧
      Acked q (roundAt (wire quiet) cfg (loopFuel cfg)
      (firstHead (wire quiet) cfg s (writer q))).trace := by
  have hc : (firstHead (wire quiet) cfg s (writer q)).x.Ok cfg s.ctx.minimumBlockSize :=
    firstHead_ok
  have hin : (firstHead (wire quiet) cfg s (writer q)).env.input = q.toBytes ++
      List.replicate q.count.toNat 0 :=
    rfl
  have hq := requestAt_wire quiet hc.request hin hm
  refine ⟨hq, ?_⟩
  have hin' : (envAt (wire quiet) (firstHead (wire quiet) cfg s (writer q)) q).input =
      List.replicate q.count.toNat 0 := by
    rw [envAt_wire_input (by simp [hin]), hin, List.drop_left' (by simp)]
  have H : RoundRules (wire quiet) cfg s.ctx.minimumBlockSize
      (firstHead (wire quiet) cfg s (writer q)) q (fun _ _ _ h => Acked q h) (fun _ _ _ => False)
      (fun x e w _ => e = NBD_SUCCESS ∧
        (x.sendflag ≠ 0 → x.blkremains.toNat * s.ctx.minimumBlockSize.toNat ≤ w.input.length)) := by
    refine RoundRules.of_write ht (writer_rules hw) (fun hr' => absurd hr hr')
      (fun _ _ => ⟨rfl, fun _ => ?_⟩) (fun _ hb => ?_)
    · rw [accept_blkremains, hin', List.length_replicate]
      exact Nat.div_mul_le_self _ _
    · rw [hb] at h1
      exact absurd h1 (by decide)
  exact H.round_total hq h1 h2 (Nat.le_refl _) hc rfl

/-! ### Every WRITE -/

/-- **An acknowledged WRITE is a complete write**, whatever the plugin and the transport do and
whatever was requested before, if and only if it is never acknowledged, or it is empty, or it
is of whole blocks and the first block of no chunk wraps round. -/
theorem acknowledged_write_complete_iff (cfg : Config) (ctx : ContextNbd) (q : NbdRequest)
    (h1 : 1 ≤ ctx.minimumBlockSize.toNat) (h2 : ctx.minimumBlockSize.toNat ≤ cfg.bufferLen)
    (hm : q.magic = NBD_REQUEST_MAGIC) (ht : q.type = NBD_CMD_WRITE) :
    (∀ (σ : Type) (env : Env Call Resp σ) (fuel : ℕ) (s : Shared) (w : σ) (c : ReqHead σ),
      s.ctx = ctx → AtRequest env cfg fuel (fun _ => True) s w c → requestAt env c = some q →
      Acked q (roundAt env cfg fuel c).trace →
      WriteComplete ctx.minimumBlockSize q (roundAt env cfg fuel c).trace) ↔
    ¬ Writable ctx ∨ writeError ctx q ≠ NBD_SUCCESS ∨ q.count = 0 ∨
    Exact cfg ctx.minimumBlockSize q := by
  have hB : 0 < chunkBlocks cfg ctx.minimumBlockSize := Nat.div_pos h2 h1
  have hb : ctx.minimumBlockSize ≠ 0 := by
    intro hb
    rw [hb] at h1
    exact absurd h1 (by decide)
  constructor
  · intro hall
    by_cases hw : Writable ctx
    · by_cases hr : writeError ctx q = NBD_SUCCESS
      · obtain ⟨hq, hack⟩ := writer_acked (s := ⟨ctx, .empty⟩) h1 h2 hm ht hw hr
        have hdone :=
          hall _ (wire quiet) (loopFuel cfg) ⟨ctx, .empty⟩ (writer q) _ rfl .refl hq hack
        obtain ⟨-, -, i, hi, hs⟩ := round_stored (loopFuel cfg) hb firstHead_ok hq ht hack
        exact .inr (.inr ((stored_complete_iff h1 hB hs hi).mp hdone))
      · exact .inr (.inl hr)
    · exact .inl hw
  · rintro hcond σ env fuel s w c rfl hc hq hack
    obtain ⟨rfl, hok⟩ := hc.frame
    obtain ⟨hw, hr, i, hi, hs⟩ := round_stored fuel hb hok hq ht hack
    rcases hcond with hcond | hcond | hcond
    · exact absurd hw hcond
    · exact absurd hr hcond
    · exact (stored_complete_iff h1 hB hs hi).mpr hcond

namespace Sample

/-- A WRITE of three blocks, in two chunks, is acknowledged, and complete. -/
theorem acknowledged_write_complete_three :
    WriteComplete 1 (ask NBD_CMD_WRITE 2 3) (roundAt (wire quiet) Sample.cfg 8
      (firstHead (wire quiet) Sample.cfg mem (writer (ask NBD_CMD_WRITE 2 3)))).trace :=
  (acknowledged_write_complete_iff Sample.cfg mem.ctx (ask NBD_CMD_WRITE 2 3)
    (by decide) (by decide) rfl rfl).mpr (.inr (.inr (.inr ⟨by decide, by decide, by
      intro i hi
      have hi' : i * 2 < 3 := hi
      change 2 + i * 2 < 2 ^ 64
      omega⟩)))
    _ (wire quiet) 8 mem (writer (ask NBD_CMD_WRITE 2 3)) _ rfl .refl (by decide +kernel)
    ⟨5, 0, ⟨16, by decide, by decide⟩, by decide +kernel⟩

/-- **A WRITE of one byte is acknowledged, and nothing is written**, when blocks have two. -/
theorem acknowledged_write_incomplete :
    ¬ ∀ (σ : Type) (env : Env Call Resp σ) (cfg : Config) (fuel : ℕ) (s : Shared) (w : σ),
      1 ≤ s.ctx.minimumBlockSize.toNat → s.ctx.minimumBlockSize.toNat ≤ cfg.bufferLen →
      ∀ c, AtRequest env cfg fuel (fun _ => True) s w c → ∀ q, requestAt env c = some q →
      q.type = NBD_CMD_WRITE → Acked q (roundAt env cfg fuel c).trace →
      WriteComplete s.ctx.minimumBlockSize q (roundAt env cfg fuel c).trace := by
  intro h
  have hc :=
    h _ (wire quiet) Sample.cfg 8 twos (writer (ask NBD_CMD_WRITE 0 1)) (by decide) (by decide) _
    .refl (ask NBD_CMD_WRITE 0 1) (by decide +kernel) rfl
    ⟨5, 0, ⟨16, by decide, by decide⟩, by decide +kernel⟩
  exact absurd (hc.aligned (by decide)).2 (by decide)

end Sample

end LwNBD
