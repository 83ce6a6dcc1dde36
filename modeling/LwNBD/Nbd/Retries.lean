import LwNBD.Data.Tries
import LwNBD.Nbd.BlockDevice

/-!
# Retries

A READ whose chunks are not read at the first try. `retry` counts down the tries that are left for
the chunk at hand, and is set again when the chunk was sent. The plugin may fail as it likes; which
tries fail is up to its state.

## The model

* `FlakyDevice` — the plugin reads an array of blocks, whose bytes are `content`, or fails.
* `chunkTry` — a try to read a chunk, as a step that may fail: `Tries.through` says whether all
  chunks are read with the tries there are.
* `flawless` — the plugin of the same content that never fails.

## What is proved

* `retrying_rules` — what the chunks of a READ and their tries keep.
* `round_retries` — if every chunk is read in time, the answer is complete, and if not, it stops
  with the last chunk that was.
* `read_retries_transparent` — so failures show in the bytes sent only when a chunk is given up.
-/

namespace LwNBD

open Resumption

variable {β : Type}

/-! ### What is assumed, and what is to be shown -/

/-- The plugin `p`, with handle `handle`, reads an array of blocks whose bytes are `content`, or
fails. -/
structure FlakyDevice (host : Env Call Resp β) (p : Plugin) (handle : Handle) (blocksize : UInt32)
    (content : β → Bytes) : Prop where
  /-- `pread` reads blocks, if it succeeds. -/
  pread : ∀ b count offset r b', host b (.pread p handle count offset) = (r, b') → r.ret = 0 →
    (offset.toNat + count.toNat) * blocksize.toNat ≤ (content b).length →
    r.data = (content b).slice (offset.toNat * blocksize.toNat) (count.toNat * blocksize.toNat)
  /-- It changes nothing, whether it succeeds or not. -/
  same : ∀ b count offset r b', host b (.pread p handle count offset) = (r, b') →
    content b' = content b
  /-- Notes are nothing to it. -/
  note : ∀ b n, content (host b (.note n)).2 = content b

/-- What a run sends, with the flags. -/
def sendsWith (h : List Ev) : List (Bytes × ℤ) := h.filterMap fun
  | ⟨.send _ _ buf flags, _⟩ => some (buf, flags)
  | _ => none

/-- The chunks of an accepted request. -/
def NbdRequest.chunks (q : NbdRequest) (cfg : Config) (blocksize : UInt32) : ℕ :=
  (q.blocks blocksize - 1) / chunkBlocks cfg blocksize + 1

/-- The bytes of chunk `i`. -/
def NbdRequest.dataOf (q : NbdRequest) (cfg : Config) (blocksize : UInt32) (d : Bytes) (i : ℕ) :
    Bytes :=
  d.slice (q.offsetOf cfg blocksize i * blocksize.toNat)
    (q.blocksOf cfg blocksize i * blocksize.toNat)

/-- The call that reads chunk `i`. -/
@[reducible] def NbdRequest.readOf (q : NbdRequest) (cfg : Config) (ctx : ContextNbd)
    (p : Plugin) (i : ℕ) : Call :=
  .pread p ctx.handle (.ofNat (q.blocksOf cfg ctx.minimumBlockSize i))
    (.ofNat (q.offsetOf cfg ctx.minimumBlockSize i))

/-- Tries to read chunk `i`, with their answers. -/
def NbdRequest.triesOf (q : NbdRequest) (cfg : Config) (ctx : ContextNbd) (p : Plugin)
    (i : ℕ) (rs : List Pread) : List Ev := rs.map fun r => ⟨q.readOf cfg ctx p i, r⟩

/-- A try to read chunk `i`. -/
def chunkTry (host : Env Call Resp β) (cfg : Config) (ctx : ContextNbd) (p : Plugin)
    (q : NbdRequest) (i : ℕ) (b : β) : Bool × β :=
  let a := host b (q.readOf cfg ctx p i)
  (a.1.ret = 0, a.2)

/-- No chunk of the request fails more than `maxRetries` times in a row, with the plugin in
state `b` when the first is read. -/
def ReadInTime (host : Env Call Resp β) (cfg : Config) (ctx : ContextNbd) (p : Plugin)
    (q : NbdRequest) (b : β) :
    Prop :=
  Tries.through (chunkTry host cfg ctx p q) (cfg.maxRetries + 1) (q.chunks cfg ctx.minimumBlockSize)
    b ≠ none

/-- The plugin of blocks of `blocksize` bytes that never fails; its state is its content. -/
def flawless (blocksize : UInt32) : Env Call Resp Bytes
  | d, .pread _ _ count offset =>
    (⟨0, d.slice (offset.toNat * blocksize.toNat) (count.toNat * blocksize.toNat)⟩, d)
  | d, .getSize .. => (Int64.ofNat d.length, d)
  | d, .blockSize .. => ((blocksize, blocksize, blocksize), d)
  | d, e => ((quiet () e).1, d)

/-- A READ that was served in full: its reply and its chunks were sent, each once and in order. -/
structure ReadServed (cfg : Config) (blocksize : UInt32) (q : NbdRequest) (d : Bytes)
    (o : Outcome (Ctl Vars ℤ)) (h : List Ev) : Prop where
  /-- The loop goes on, with all retries. -/
  next : ∃ x, o = .ret (.next x) ∧ x.retry = cfg.maxRetries
  /-- What was sent. -/
  sent : (sendsWith h).map Prod.fst = simpleReply NBD_SUCCESS q.handle ::
    (List.range (q.chunks cfg blocksize)).map (q.dataOf cfg blocksize d)
  /-- These are the bytes that were asked for. -/
  bytes : sentBytes h = simpleReply NBD_SUCCESS q.handle ++ d.slice q.offset.toNat q.count.toNat

/-- A READ that was given up at one of its chunks: the reply and the chunks before were sent,
and the calls end with the tries to read it. -/
structure ReadGivenUp (cfg : Config) (ctx : ContextNbd) (p : Plugin) (q : NbdRequest) (d : Bytes)
    (o : Outcome (Ctl Vars ℤ)) (h : List Ev) (i : ℕ) : Prop where
  /-- The function returns. -/
  done : o = .ret (.done (-1))
  /-- There is such a chunk. -/
  lt : i < q.chunks cfg ctx.minimumBlockSize
  /-- What was sent. -/
  sent : (sendsWith h).map Prod.fst = simpleReply NBD_SUCCESS q.handle ::
    (List.range i).map (q.dataOf cfg ctx.minimumBlockSize d)
  /-- This is the start of what was asked for. -/
  bytes : sentBytes h = simpleReply NBD_SUCCESS q.handle ++
    d.slice q.offset.toNat (q.blocksBefore cfg ctx.minimumBlockSize i * ctx.minimumBlockSize.toNat)
  /-- The chunk was tried so often, and no more. -/
  tries : ∃ h₀ e rs, h = h₀ ++ e :: q.triesOf cfg ctx p i rs ∧ e.1.isSend = true ∧
    rs.length = cfg.maxRetries + 1 ∧ ∀ r ∈ rs, r.ret ≠ 0

variable {host : Env Call Resp β} {cfg : Config} {fuel : ℕ} {blocksize : UInt32}
  {s : Shared} {w : Wire β}
variable {c : ReqHead (Wire β)} {p : Plugin} {ctx : ContextNbd} {content : β → Bytes}
  {q : NbdRequest} {m : Msg}
variable {x : Vars} {i : ℕ} {d : Bytes} {b b' b₀ : β}

/-! ### What is sent -/

@[simp] theorem sendsWith_nil : sendsWith [] = [] := rfl

@[simp] theorem sendsWith_append (h h' : List Ev) :
    sendsWith (h ++ h') = sendsWith h ++ sendsWith h' :=
  List.filterMap_append

@[simp] theorem sendsWith_send (sock : ℤ) (obj : Obj) (buf : Bytes) (flags : ℤ)
    (r : Sent buf.length) (h : List Ev) :
    sendsWith (⟨.send sock obj buf flags, r⟩ :: h) = (buf, flags) :: sendsWith h := rfl

@[simp] theorem sendsWith_pread (p : Plugin) (handle : Handle) (n : UInt32) (o : UInt64)
    (r : Pread) (h : List Ev) :
    sendsWith (⟨.pread p handle n o, r⟩ :: h) = sendsWith h := rfl

theorem sendsWith_headerAt {σ : Type} (env : Env Call Resp σ) (c : ReqHead σ) (q : NbdRequest) :
    sendsWith (headerAt env c q) = [] := rfl

theorem sentBytes_eq_sendsWith (h : List Ev) :
    sentBytes h = ((sendsWith h).map Prod.fst).flatten := by
  induction h with
  | nil => rfl
  | cons e h ih =>
    obtain ⟨e, r⟩ := e
    cases e <;> first | exact ih | exact congrArg _ ih

/-! ### The chunks -/

theorem lt_chunks_iff (hB : 0 < chunkBlocks cfg blocksize) :
    i < q.chunks cfg blocksize ↔ i = 0 ∨ i * chunkBlocks cfg blocksize < q.blocks blocksize := by
  rw [NbdRequest.chunks, Nat.lt_succ_iff, Nat.le_div_iff_mul_le hB]
  cases i with
  | zero => simp
  | succ i =>
    rw [Nat.add_mul]
    omega

theorem flatten_dataOf (hm : m.Proper blocksize d.length) (hlt : d.length < 2 ^ 63) (i : ℕ) :
    ((List.range i).map (m.request.dataOf cfg blocksize d)).flatten =
      d.slice m.request.offset.toNat (m.request.blocksBefore cfg blocksize i *
      blocksize.toNat) := by
  induction i with
  | zero =>
    rw [blocksBefore_zero, Nat.zero_mul, List.slice_zero_right, List.range_zero,
    List.map_nil, List.flatten_nil]
  | succ i ih =>
    rw [List.range_succ, List.map_append, List.flatten_append, ih, blocksBefore_succ, Nat.add_mul,
      ← List.slice_append_slice, ← hm.offsetOf_mul cfg hlt, List.map_singleton,
      List.flatten_singleton]
    rfl

theorem blocksBefore_chunks (hB : 0 < chunkBlocks cfg blocksize) :
    q.blocksBefore cfg blocksize (q.chunks cfg blocksize) = q.blocks blocksize := by
  refine blocksBefore_of_le ?_
  have h := mt (lt_chunks_iff (q := q) hB (i := q.chunks cfg blocksize)).mpr (Nat.lt_irrefl _)
  omega

/-- The next try, in the loop, is a try of the next chunk. -/
theorem chunkTry_eq {r : Pread} (hs : x.Serving cfg ctx.minimumBlockSize q i)
    (hr : host b (.pread p ctx.handle (x.chunk ctx.minimumBlockSize).bufblksz x.offset) = (r, b')) :
    chunkTry host cfg ctx p q i b = (decide (r.ret = 0), b') := by
  have hn := hs.blocks
  have ho := hs.offset
  unfold chunkTry NbdRequest.readOf
  rw [← hn, ← ho, UInt32.ofNat_toNat, UInt64.ofNat_toNat, hr]

theorem triesOf_concat (hs : x.Serving cfg ctx.minimumBlockSize q i) (rs : List Pread) (r : Pread) :
    q.triesOf cfg ctx p i (rs ++ [r]) = q.triesOf cfg ctx p i rs ++
      [⟨.pread p ctx.handle (x.chunk ctx.minimumBlockSize).bufblksz x.offset, r⟩] := by
  have hn : UInt32.ofNat (q.blocksOf cfg ctx.minimumBlockSize i) =
      (x.chunk ctx.minimumBlockSize).bufblksz := by
    rw [← hs.blocks, UInt32.ofNat_toNat]
  have ho : UInt64.ofNat (q.offsetOf cfg ctx.minimumBlockSize i) = x.offset := by
    rw [← hs.offset, UInt64.ofNat_toNat]
  unfold NbdRequest.triesOf NbdRequest.readOf
  rw [List.map_append, hn, ho]
  rfl

/-! ### The loop -/

/-- What holds in the loop of a READ at chunk `i`, the plugin having been in state `b₀` when the
first was tried. -/
structure Retrying (host : Env Call Resp β) (cfg : Config) (ctx : ContextNbd) (p : Plugin)
    (content : β → Bytes) (q : NbdRequest) (d : Bytes) (b₀ : β) (x : Vars) (w : Wire β)
    (h : List Ev) (i : ℕ) : Prop where
  /-- So many chunks were served. -/
  serving : x.Serving cfg ctx.minimumBlockSize q i
  /-- The content is as it was. -/
  same : content w.host = d
  /-- The reply was sent, and these chunks. -/
  sent : (sendsWith h).map Prod.fst = simpleReply NBD_SUCCESS q.handle ::
    (List.range i).map (q.dataOf cfg ctx.minimumBlockSize d)
  /-- They were read in time, and whether this one will be is up to the tries that are left. -/
  inTime : ∃ b, Tries.through (chunkTry host cfg ctx p q) (cfg.maxRetries + 1) i b₀ = some b ∧
    Tries.within (chunkTry host cfg ctx p q i) (cfg.maxRetries + 1) b =
      Tries.within (chunkTry host cfg ctx p q i) (x.retry + 1) w.host
  /-- The calls end with the tries to read it. -/
  tries : ∃ h₀ e rs, h = h₀ ++ e :: q.triesOf cfg ctx p i rs ∧ e.1.isSend = true ∧
    rs.length + x.retry = cfg.maxRetries ∧ ∀ r ∈ rs, r.ret ≠ 0
  /-- While the loop goes on, there is such a chunk. -/
  more : x.sendflag ≠ 0 → i < q.chunks cfg ctx.minimumBlockSize
  /-- The loop is left after the last. -/
  last : x.sendflag = 0 → i = q.chunks cfg ctx.minimumBlockSize ∧ x.retry = cfg.maxRetries

namespace Retrying

variable {h : List Ev} {r : Pread} {w₁ : Wire β}

/-- The chunk is read: it is sent, and the next one has all tries. -/
theorem step (hB : 0 < chunkBlocks cfg ctx.minimumBlockSize)
    (hi : Retrying host cfg ctx p content q d b₀ x w h i) (hne : x.sendflag ≠ 0)
    (hr : host w.host (.pread p ctx.handle (x.chunk ctx.minimumBlockSize).bufblksz x.offset) =
      (r, b'))
    (hok : r.ret = 0) (hcont : content b' = content w.host) {sock : ℤ} {buf : Bytes} {flags : ℤ}
    {k : Sent buf.length} (hbuf : buf = q.dataOf cfg ctx.minimumBlockSize d i) (hw : w₁.host = b') :
    Retrying host cfg ctx p content q d b₀
    (((x.chunk ctx.minimumBlockSize).fill r.data).advance cfg) w₁
      (h ++ [⟨.pread p ctx.handle (x.chunk ctx.minimumBlockSize).bufblksz x.offset, r⟩,
        ⟨.send sock .nbdBuffer buf flags, k⟩]) (i + 1) := by
  subst hw hbuf
  have hlt := hi.more hne
  have hlast := hi.serving.last
  obtain ⟨b, hthrough, hwithin⟩ := hi.inTime
  have htry := chunkTry_eq hi.serving hr
  have hread : Tries.within (chunkTry host cfg ctx p q i) (x.retry + 1) w.host = some w₁.host := by
    rw [Tries.within_of_ok (by rw [htry]; exact decide_eq_true hok), htry]
  refine ⟨hi.serving.advance, hcont.trans hi.same, ?_, ⟨w₁.host, ?_, rfl⟩, ?_, fun hne' => ?_,
    fun h0 => ⟨?_, rfl⟩⟩
  · rw [sendsWith_append, List.map_append, hi.sent, List.range_succ, List.map_append]
    rfl
  · rw [Tries.through_succ hthrough, hwithin, hread]
  · exact ⟨h ++ [_], _, [], (List.append_assoc h [_] [_]).symm, rfl, Nat.zero_add _, by simp⟩
  · rw [advance_sendflag, fill_sendflag, hlast] at hne'
    refine (lt_chunks_iff hB).mpr (.inr ?_)
    by_contra hle
    exact hne' (if_pos (Nat.le_of_not_lt hle))
  · have hle := hi.serving.blocks_le hne h0
    have hnlt := mt (lt_chunks_iff (q := q) hB (i := i + 1)).mp (by omega)
    omega

/-- A try that fails is one more of the tries that the calls end with. -/
theorem tried (hi : Retrying host cfg ctx p content q d b₀ x w h i) (hfail : r.ret ≠ 0) :
    ∃ h₀ e rs, h ++ [⟨.pread p ctx.handle (x.chunk ctx.minimumBlockSize).bufblksz x.offset, r⟩] =
      h₀ ++ e :: q.triesOf cfg ctx p i rs ∧ e.1.isSend = true ∧
      rs.length + x.retry = cfg.maxRetries + 1 ∧ ∀ r ∈ rs, r.ret ≠ 0 := by
  obtain ⟨h₀, e, rs, hh, he, hlen, hrs⟩ := hi.tries
  refine ⟨h₀, e, rs ++ [r], ?_, he, ?_, ?_⟩
  · rw [hh, triesOf_concat hi.serving, List.append_assoc, List.cons_append]
  · rw [List.length_append, List.length_singleton]
    omega
  · intro r' hr'
    rcases List.mem_append.mp hr' with hr' | hr'
    · exact hrs r' hr'
    · rw [List.mem_singleton.mp hr']
      exact hfail

theorem sent_tried (hi : Retrying host cfg ctx p content q d b₀ x w h i) :
    (sendsWith (h ++ [⟨.pread p ctx.handle (x.chunk ctx.minimumBlockSize).bufblksz x.offset,
      r⟩])).map Prod.fst =
      simpleReply NBD_SUCCESS q.handle ::
      (List.range i).map (q.dataOf cfg ctx.minimumBlockSize d) := by
  rw [sendsWith_append, List.map_append, hi.sent]
  exact List.append_nil _

/-- The chunk is not read: a try less is left for it. -/
theorem again (hi : Retrying host cfg ctx p content q d b₀ x w h i) (hne : x.sendflag ≠ 0)
    (hr : host w.host (.pread p ctx.handle (x.chunk ctx.minimumBlockSize).bufblksz x.offset) =
      (r, b'))
    (hfail : r.ret ≠ 0) (hcont : content b' = content w.host) (hretry : x.retry ≠ 0)
    (hw : w₁.host = b') : Retrying host cfg ctx p content q d b₀
      { (x.chunk ctx.minimumBlockSize).fill r.data with retry := x.retry - 1, sendflag := 1 } w₁
      (h ++ [⟨.pread p ctx.handle (x.chunk ctx.minimumBlockSize).bufblksz x.offset, r⟩]) i := by
  subst hw
  obtain ⟨b, hthrough, hwithin⟩ := hi.inTime
  obtain ⟨h₀, e, rs, hh, he, hlen, hrs⟩ := hi.tried hfail
  have htry := chunkTry_eq hi.serving hr
  refine ⟨hi.serving.chunk.congr rfl rfl rfl, hcont.trans hi.same, hi.sent_tried, ⟨b, hthrough, ?_⟩,
    ⟨h₀, e, rs, hh, he, ?_, hrs⟩, fun _ => hi.more hne, fun h0 =>
    absurd (show (1 : ℤ) = 0 from h0) (by decide)⟩
  · rw [hwithin, Tries.within_of_fail (by rw [htry]; exact decide_eq_false hfail), htry]
    show Tries.within _ x.retry w₁.host = Tries.within _ (x.retry - 1 + 1) w₁.host
    rw [Nat.sub_add_cancel (Nat.pos_of_ne_zero hretry)]
  · show rs.length + (x.retry - 1) = cfg.maxRetries
    omega

/-- The chunk is not read, and no try is left for it: the READ is given up. -/
theorem gives_up (hm : m.Proper ctx.minimumBlockSize d.length) (hlt : d.length < 2 ^ 63)
    (hi : Retrying host cfg ctx p content m.request d b₀ x w h i) (hne : x.sendflag ≠ 0)
    (hr : host w.host (.pread p ctx.handle (x.chunk ctx.minimumBlockSize).bufblksz x.offset) =
      (r, b'))
    (hfail : r.ret ≠ 0) (hretry : x.retry = 0) : ¬ ReadInTime host cfg ctx p m.request b₀ ∧
      ReadGivenUp cfg ctx p m.request d (.ret (.done (-1)))
        (h ++ [⟨.pread p ctx.handle (x.chunk ctx.minimumBlockSize).bufblksz x.offset, r⟩]) i := by
  have htry := chunkTry_eq hi.serving hr
  obtain ⟨b, hthrough, hwithin⟩ := hi.inTime
  obtain ⟨h₀, e, rs, hh, he, hlen, hrs⟩ := hi.tried hfail
  have hnone : Tries.through (chunkTry host cfg ctx p m.request) (cfg.maxRetries + 1) (i + 1) b₀ =
      none := by
    rw [Tries.through_succ hthrough, hwithin,
      Tries.within_of_fail (by rw [htry]; exact decide_eq_false hfail), hretry, Tries.within]
  refine ⟨fun htime => htime (Tries.through_eq_none_of_le hnone (hi.more hne)), rfl,
    hi.more hne, hi.sent_tried, ?_, h₀, e, rs, hh, he, ?_, hrs⟩
  · rw [sentBytes_eq_sendsWith, hi.sent_tried, List.flatten_cons, flatten_dataOf hm hlt]
  · rw [hretry] at hlen
    exact hlen

end Retrying

/-- What is to be shown of a round: the READ is served if every chunk is read in time, and given
up if not. -/
def Retried (host : Env Call Resp β) (cfg : Config) (ctx : ContextNbd) (p : Plugin)
    (q : NbdRequest) (d : Bytes) (b₀ : β) (o : Outcome (Ctl Vars ℤ)) (h : List Ev) : Prop :=
  (ReadInTime host cfg ctx p q b₀ → ReadServed cfg ctx.minimumBlockSize q d o h) ∧
    (¬ ReadInTime host cfg ctx p q b₀ → ∃ i, ReadGivenUp cfg ctx p q d o h i)

/-- The chunks of a READ, and their tries. -/
theorem retrying_rules (hdev : FlakyDevice host p s.ctx.handle s.ctx.minimumBlockSize content)
    (hp : s.ctx.p = some p) (hB : 0 < chunkBlocks cfg s.ctx.minimumBlockSize)
    (hlt : d.length < 2 ^ 63) (hm : m.Proper s.ctx.minimumBlockSize d.length) :
    ReadRules (wire host) s cfg s.ctx.minimumBlockSize
      (fun o _ _ h => Retried host cfg s.ctx p m.request d b₀ o h)
      (fun x w h => ∃ i, Retrying host cfg s.ctx p content m.request d b₀ x w h i) where
  leave := by
    rintro x w h - ⟨i, hi⟩ h0
    obtain ⟨hlast, hretry⟩ := hi.last h0
    obtain ⟨b, hthrough, -⟩ := hi.inTime
    have hsent := hi.sent
    rw [hlast] at hsent hthrough
    have htime : ReadInTime host cfg s.ctx p m.request b₀ := by
      unfold ReadInTime
      rw [hthrough]
      exact Option.some_ne_none b
    refine ⟨fun _ => ⟨⟨x, rfl, hretry⟩, hsent, ?_⟩, fun hnot => absurd htime hnot⟩
    rw [sentBytes_eq_sendsWith, hsent, List.flatten_cons, flatten_dataOf hm hlt,
      blocksBefore_chunks hB, hm.blocks_mul]
  null := by
    rintro x w h - - - hp'
    rw [hp] at hp'
    cases hp'
  sent := by
    rintro x w h p' r w₁ k w₂ hx ⟨i, hi⟩ hne hp' hr hok z hk -
    cases hp.symm.trans hp'
    obtain ⟨hr', -, -⟩ := wire_host_eq hr rfl rfl
    obtain ⟨-, rfl⟩ := wire_send_eq hk
    have hle := hm.chunk_le cfg hlt i
    have hsame := hi.same
    have hdata : r.data = m.request.dataOf cfg s.ctx.minimumBlockSize d i := by
      rw [← hi.serving.offset, ← hi.serving.blocks, ← hsame] at hle
      rw [hdev.pread _ _ _ _ _ hr' hok hle, hsame, hi.serving.offset, hi.serving.blocks]
      rfl
    have hlen : r.data.length = (x.chunk s.ctx.minimumBlockSize).byteread.toNat := by
      rw [hdata, NbdRequest.dataOf, hx.chunk.bytes, hi.serving.blocks,
        List.length_slice (by rw [← Nat.add_mul]; exact hle)]
    have hbuf : z.nbdBuffer.take z.byteread.toNat = m.request.dataOf cfg
        s.ctx.minimumBlockSize d i :=
      (hx.take_fill hlen).trans hdata
    exact ⟨i + 1, hi.step hB hne hr' hok (hdev.same _ _ _ _ _ hr') hbuf rfl⟩
  cut := by
    rintro x w h p' r w₁ k w₂ - - - - - - z hk hne hz
    refine absurd ?_ hne
    rw [(wire_send_eq hk).1, hz.length_take]
  again := by
    rintro x w h p' r w₁ - ⟨i, hi⟩ hne hp' hr hfail hretry
    cases hp.symm.trans hp'
    obtain ⟨hr', -, -⟩ := wire_host_eq hr rfl rfl
    exact ⟨i, hi.again hne hr' hfail (hdev.same _ _ _ _ _ hr') hretry rfl⟩
  fail := by
    rintro x w h p' r w₁ - ⟨i, hi⟩ hne hp' hr hfail hretry
    cases hp.symm.trans hp'
    obtain ⟨hr', -, -⟩ := wire_host_eq hr rfl rfl
    obtain ⟨hlate, hup⟩ := hi.gives_up hm hlt hne hr' hfail hretry
    exact ⟨fun htime => absurd htime hlate, fun _ => ⟨i, hup⟩⟩

/-! ### A round -/

variable (fuel) in
/-- A round serves a READ whose chunks are read in time, and gives up any other. -/
theorem round_retries (hdev : FlakyDevice host p c.mem.ctx.handle
      c.mem.ctx.minimumBlockSize content)
    (h1 : 1 ≤ c.mem.ctx.minimumBlockSize.toNat)
    (h2 : c.mem.ctx.minimumBlockSize.toNat ≤ cfg.bufferLen) (hp : c.mem.ctx.p = some p)
    (hfuel : loopFuel cfg ≤ fuel) (hc : c.x.Ok cfg c.mem.ctx.minimumBlockSize)
    (h0 : c.x.sendflag = 0) (hretry : c.x.retry = cfg.maxRetries)
    (hq : requestAt (wire host) c = some m.request) (ht : m.request.type = NBD_CMD_READ)
    (hm : m.Proper c.mem.ctx.minimumBlockSize (content c.env.host).length)
    (hsize : ((content c.env.host).length : ℤ) = c.mem.ctx.exportsize.toInt) :
    wp (wire host) (serveIn cfg fuel c.mem c.x) (fun o _ _ h =>
      Retried host cfg c.mem.ctx p m.request (content c.env.host)
      (envAt (wire host) c m.request).host o h)
      c.mem c.env := by
  have hlt : (content c.env.host).length < 2 ^ 63 := by
    have := c.mem.ctx.exportsize.toInt_lt
    omega
  have hB : 0 < chunkBlocks cfg c.mem.ctx.minimumBlockSize := Nat.div_pos h2 h1
  have hb : c.mem.ctx.minimumBlockSize ≠ 0 := by
    intro hb
    rw [hb] at h1
    exact absurd h1 (by decide)
  have hrange : outOfRange c.mem.ctx.exportsize m.request = false := by
    have hE := toNat_toUInt64_of_nonneg (e := c.mem.ctx.exportsize) (by omega)
    have hstop := hm.stop
    rw [outOfRange_eq_false_iff, Nat.mod_eq_of_lt (by omega)]
    omega
  have hhost : content (envAt (wire host) c m.request).host = content c.env.host := by
    rw [envAt_wire_host, hdev.note]
  have H : RoundRules (wire host) cfg c.mem.ctx.minimumBlockSize c m.request
      (fun o _ _ h => Retried host cfg c.mem.ctx p m.request (content c.env.host)
        (envAt (wire host) c m.request).host o h)
      (fun x w h => ∃ i, Retrying host cfg c.mem.ctx p content m.request (content c.env.host)
        (envAt (wire host) c m.request).host x w h i)
      (fun _ _ _ _ => False) := by
    refine RoundRules.of_read ht (retrying_rules hdev hp hB hlt hm) (fun hr => ?_)
      (fun _ _ k w₁ hk => ?_) (fun _ hz => absurd hz hb)
    · rw [hrange] at hr
      cases hr
    · obtain ⟨-, rfl⟩ := wire_send_eq hk
      refine ⟨0, accept_serving, hhost, ?_, ⟨_, rfl, ?_⟩, ⟨_, _, [], rfl, rfl, ?_, by simp⟩,
        fun _ => (lt_chunks_iff hB).mpr (.inl rfl), fun h0 =>
        absurd h0 (by rw [accept_sendflag]; decide)⟩
      · rw [sendsWith_append, sendsWith_headerAt]
        rfl
      · rw [accept_retry, varsAt_retry, hretry]
      · rw [accept_retry, varsAt_retry, hretry]
        exact Nat.zero_add _
  exact H.round_total hq h1 h2 hfuel hc h0

/-! ### Every READ -/

/-- A READ of whole blocks, in an export of `size` bytes. -/
structure AlignedRead (blocksize : UInt32) (size : ℕ) (q : NbdRequest) : Prop where
  /-- It is a READ. -/
  type : q.type = NBD_CMD_READ
  /-- It begins with a block. -/
  offset : blocksize.toNat ∣ q.offset.toNat
  /-- It ends with a block. -/
  count : blocksize.toNat ∣ q.count.toNat
  /-- It lies in the export. -/
  stop : q.offset.toNat + q.count.toNat ≤ size

/-- As a message. -/
def AlignedRead.msg {size : ℕ} (h : AlignedRead blocksize size q)
    (hm : q.magic = NBD_REQUEST_MAGIC) : Msg :=
  ⟨q, [], hm, by rw [dataLength_other (by rw [h.type]; decide)]; rfl⟩

theorem AlignedRead.proper {size : ℕ} (h : AlignedRead blocksize size q)
    (hm : q.magic = NBD_REQUEST_MAGIC) : (h.msg hm).Proper blocksize size :=
  ⟨.inl h.type, h.offset, h.count, h.stop⟩

/-- The wire, with another host. -/
def Wire.withHost {γ : Type} (w : Wire β) (g : γ) : Wire γ := ⟨w.input, w.output, g⟩

theorem flawless_isFlaky (handle : Handle) :
    FlakyDevice (flawless blocksize) p handle blocksize id where
  pread := by rintro d count offset r d' h - -; cases h; rfl
  same := by rintro d count offset r d' h; cases h; rfl
  note _ _ := rfl

theorem flawless_inTime : ReadInTime (flawless blocksize) cfg ctx p q d :=
  Tries.through_of_ok (fun _ _ => rfl) d _

theorem magic_of_requestAt {σ : Type} {env : Env Call Resp σ} {c : ReqHead σ}
    (hq : requestAt env c = some q) : q.magic = NBD_REQUEST_MAGIC := by
  unfold requestAt at hq
  dsimp only at hq
  split_ifs at hq with hbad
  cases hq
  exact not_not.mp (not_or.mp hbad).2

/-- **Read retries are transparent and bounded.** Over the lossless transport, a READ of whole
blocks in the export that comes with all retries is served as by the plugin that never fails, if no
chunk fails more than `maxRetries` times in a row; all its chunks are sent, once and in order, and
all retries are there again. If one does, `transmission_phase` returns `-1` after `maxRetries + 1`
failures of it, the reply and the chunks before having been sent. -/
theorem read_retries_transparent (host : Env Call Resp β) (cfg : Config) (fuel : ℕ)
    (s : Shared) (w : Wire β) (p : Plugin) (content : β → Bytes)
    (hdev : FlakyDevice host p s.ctx.handle s.ctx.minimumBlockSize content) (hp : s.ctx.p = some p)
    (h1 : 1 ≤ s.ctx.minimumBlockSize.toNat) (h2 : s.ctx.minimumBlockSize.toNat ≤ cfg.bufferLen)
    (hfuel : loopFuel cfg ≤ fuel) (hin : w.input.length < fuel) (c : ReqHead (Wire β))
    (hc : AtRequest (wire host) cfg fuel (fun _ => True) s w c)
    (hretry : c.x.retry = cfg.maxRetries)
    (hsize : ((content c.env.host).length : ℤ) = s.ctx.exportsize.toInt) (q : NbdRequest)
    (hq : requestAt (wire host) c = some q)
    (hread : AlignedRead s.ctx.minimumBlockSize (content c.env.host).length q) :
    let b := (envAt (wire host) c q).host
    let z := roundAt (wire host) cfg fuel c
    let free := roundAt (wire (flawless s.ctx.minimumBlockSize)) cfg fuel
      ⟨c.x, c.mem, c.env.withHost (content c.env.host)⟩
    (ReadInTime host cfg s.ctx p q b →
      ReadServed cfg s.ctx.minimumBlockSize q (content c.env.host) z.out z.trace ∧
        (sendsWith z.trace).map Prod.fst = (sendsWith free.trace).map Prod.fst) ∧
    (¬ ReadInTime host cfg s.ctx p q b →
      (∃ i, ReadGivenUp cfg s.ctx p q (content c.env.host) z.out z.trace i) ∧
        ((transmissionPhase cfg fuel).run (wire host) s w).out = .ret (-1)) := by
  have h0 := AtRequest.sendflag_wire hc
  obtain ⟨hmem, hok⟩ := AtRequest.frame hc
  obtain ⟨x, mem, e⟩ := c
  subst hmem
  have hm := magic_of_requestAt hq
  have hz :=
    round_retries (c := ⟨x, mem, e⟩) (m := hread.msg hm) fuel hdev h1 h2 hp hfuel hok h0 hretry hq
    hread.type (hread.proper hm) hsize
  have hfree := round_retries (c := ⟨x, mem, e.withHost (content e.host)⟩) (m := hread.msg hm) fuel
    (flawless_isFlaky mem.ctx.handle) h1 h2 hp hfuel hok h0 hretry hq hread.type
    (hread.proper hm) hsize
  intro b z free
  refine ⟨fun htime => ?_, fun hnot => ?_⟩
  · have hserved := hz.1 htime
    exact ⟨hserved, hserved.sent.trans (hfree.1 flawless_inTime).sent.symm⟩
  · obtain ⟨i, hi⟩ := hz.2 hnot
    refine ⟨⟨i, hi⟩, ?_⟩
    have hends : ((transmissionPhase cfg fuel).run (wire host) mem w).out ≠ .halt .fuel :=
      transmission_ends h1 h2 hfuel hin
    rw [run_transmissionPhase] at hends ⊢
    exact (loop_of_reaches (wire host) hc hi.done fuel hends).1

namespace Sample

/-- A disk of blocks of two bytes, of which every other read fails. -/
def flaky : Env Call Resp ℕ
  | n, .pread _ _ count offset =>
    (⟨if n % 2 = 0 then 5 else 0, initially.slice (offset.toNat * 2) (count.toNat * 2)⟩, n + 1)
  | n, e => ((quiet () e).1, n)

theorem flaky_isFlaky : FlakyDevice flaky plugin Sample.ctx.handle 2 (fun _ => initially) where
  pread := by rintro n count offset r n' h - -; cases h; rfl
  same := by rintro n count offset r n' h; rfl
  note _ _ := rfl

/-- A client that reads the disk. -/
def diskReader : Wire ℕ := ⟨(ask NBD_CMD_READ 0 8).toBytes, [], 0⟩

/-- The client gets all of the disk. -/
theorem read_retries_transparent_flaky :
    sentBytes (roundAt (wire flaky) Sample.cfg (loopFuel Sample.cfg)
        (firstHead (wire flaky) Sample.cfg twos diskReader)).trace =
      simpleReply NBD_SUCCESS 1 ++ [1, 2, 3, 4, 5, 6, 7, 8] :=
  ((read_retries_transparent flaky Sample.cfg (loopFuel Sample.cfg) twos diskReader plugin
    (fun _ => initially) flaky_isFlaky rfl (by decide) (by decide) (Nat.le_refl _)
    (by decide +kernel) _ .refl rfl (by decide +kernel) (ask NBD_CMD_READ 0 8) (by decide +kernel)
    ⟨rfl, by decide, by decide, by decide⟩).1 (by
      unfold ReadInTime
      decide +kernel)).1.bytes

end Sample

end LwNBD
