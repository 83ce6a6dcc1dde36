import LwNBD.Nbd.Service

/-!
# Plugins that transfer bytes

A disk keeps what is written to it. Other plugins do not: what a loudspeaker is given is gone, and a
terminal gives its bytes once. But transfers can be put together, as those of a disk can: two of
them, one after the other, are one. This is all that the server asks for, which cuts a request into
chunks.

## The model

* `Transfer` — what transfers do, when they can be made in pieces.
* `MakesTransfers` — the plugin makes them, a chunk at a time.
* `transferOffer` — what is then offered: a message is one transfer.
* `Replied` — replies of success, and the bytes that are read.

## What is proved

* `readTransfer_rules`, `writeTransfer_rules` — the chunks of a READ and of a WRITE are one
  transfer.
* `transferOffer_kept` — the server keeps the offer.
-/

namespace LwNBD

open Resumption

/-! ### Transfers -/

/-- What transfers do to a `δ`, from an offset on, when they can be made in pieces. -/
structure Transfer (δ : Type) where
  /-- Bytes are read. -/
  reads : ℕ → Bytes → δ → δ → Prop
  /-- Bytes are written. -/
  writes : ℕ → Bytes → δ → δ → Prop
  /-- No bytes are read. -/
  reads_nil : ∀ o d, reads o [] d d
  /-- Bytes are read, and those after them. -/
  reads_append : ∀ {o a a' d d' d''}, reads o a d d' → reads (o + a.length) a' d' d'' →
    reads o (a ++ a') d d''
  /-- No bytes are written. -/
  writes_nil : ∀ o d, writes o [] d d
  /-- Bytes are written, and those after them. -/
  writes_append : ∀ {o a a' d d' d''}, writes o a d d' → writes (o + a.length) a' d' d'' →
    writes o (a ++ a') d d''

variable {β δ : Type}

/-- The plugin makes transfers of blocks, of no more than `room` bytes at a time, in an export of
`size` bytes. What it does not store of what is read is what `buf` had. What holds of it may depend
on the number of bytes that are yet to be transferred. -/
structure MakesTransfers (host : Env Call Resp β) (p : Plugin) (handle : Handle)
    (blocksize : UInt32) (t : Transfer δ) (view : β → δ) (inv : ℕ → δ → Prop) (room size : ℕ) :
    Prop where
  /-- `pread` reads blocks. -/
  pread : ∀ b count offset r b' n, host b (.pread p handle count offset) = (r, b') →
    inv (count.toNat * blocksize.toNat + n) (view b) →
    (offset.toNat + count.toNat) * blocksize.toNat ≤ size → count.toNat * blocksize.toNat ≤ room →
    r.ret = 0 ∧ inv n (view b') ∧ ∀ buf : Bytes, buf.length = count.toNat * blocksize.toNat →
      t.reads (offset.toNat * blocksize.toNat) (store buf r.data) (view b) (view b')
  /-- `pwrite` writes blocks, if it is there. -/
  pwrite : p.pwrite = true → ∀ b buf count offset r b' n,
    host b (.pwrite p handle buf count offset) = (r, b') →
    inv (count.toNat * blocksize.toNat + n) (view b) →
    (offset.toNat + count.toNat) * blocksize.toNat ≤ size → count.toNat * blocksize.toNat ≤ room →
    count.toNat * blocksize.toNat ≤ buf.length → r = 0 ∧ inv n (view b') ∧
      t.writes (offset.toNat * blocksize.toNat) (buf.take (count.toNat * blocksize.toNat)) (view b)
      (view b')
  /-- `flush` succeeds, if it is there. -/
  flush : p.flush = true → ∀ b r b', host b (.flush p handle) = (r, b') → r = 0 ∧ view b' = view b
  /-- Notes are nothing to it. -/
  note : ∀ b n, view (host b (.note n)).2 = view b
  /-- Nor are the server's variables. -/
  uninit : ∀ b n, view (host b (.uninit n)).2 = view b

/-- What holds of an export that is served: it has blocks, a plugin and a size. -/
structure Mounted (cfg : Config) (ctx : ContextNbd) (p : Plugin) (size : ℕ) : Prop where
  /-- Blocks have bytes. -/
  pos : 1 ≤ ctx.minimumBlockSize.toNat
  /-- A block fits the buffer. -/
  fits : ctx.minimumBlockSize.toNat ≤ cfg.bufferLen
  /-- It is served by `p`. -/
  plugin : ctx.p = some p
  /-- Its size. -/
  size : (size : ℤ) = ctx.exportsize.toInt

/-- A message that a client may send: one for blocks of the export, and one that the plugin has a
callback for. -/
structure Msg.Served (p : Plugin) (eflags : UInt16) (blocksize : UInt32) (size : ℕ) (m : Msg) : Prop
    extends m.Proper blocksize size where
  /-- A WRITE is one to an export that can be written. -/
  write : m.request.type = NBD_CMD_WRITE → p.pwrite = true ∧ hasReadOnly eflags = false
  /-- A FLUSH is one to an export that can be flushed. -/
  flush : m.request.type = NBD_CMD_FLUSH → p.flush = true

/-- The bytes that a message has transferred. -/
def Msg.transferred (m : Msg) : ℕ :=
  if m.request.type = NBD_CMD_READ ∨ m.request.type = NBD_CMD_WRITE then m.request.count.toNat
    else 0

/-- The bytes that messages have transferred. -/
def transferred (ms : List Msg) : ℕ := (ms.map Msg.transferred).sum

/-- The bytes that a READ asks for. -/
def Msg.bytesRead (m : Msg) : ℕ :=
  if m.request.type = NBD_CMD_READ then m.request.count.toNat else 0

/-- Replies of success to messages, where a READ's has as many bytes as it asks for; `data` are the
bytes of all. -/
inductive Replied : List Msg → Bytes → Bytes → Prop where
  /-- No message. -/
  | nil : Replied [] [] []
  /-- A message, and then the others. -/
  | cons {m : Msg} {ms : List Msg} {data data' a : Bytes} : data.length = m.bytesRead →
      Replied ms data' a →
    Replied (m :: ms) (data ++ data') (simpleReply NBD_SUCCESS m.request.handle ++ data ++ a)

/-- What is done for a message: its bytes are transferred. -/
def Transfer.serves (t : Transfer δ) (m : Msg) (d : δ) (a : Bytes) (d' : δ) : Prop :=
  if m.request.type = NBD_CMD_READ then ∃ data, data.length = m.request.count.toNat ∧
    a = simpleReply NBD_SUCCESS m.request.handle ++ data ∧ t.reads m.request.offset.toNat data d d'
  else if m.request.type = NBD_CMD_WRITE then
    a = simpleReply NBD_SUCCESS m.request.handle ∧ t.writes m.request.offset.toNat m.payload d d'
  else a = simpleReply NBD_SUCCESS m.request.handle ∧ d' = d

/-- What a plugin offers that makes transfers. -/
def transferOffer (t : Transfer δ) (view : β → δ) (inv : ℕ → δ → Prop) (p : Plugin)
    (eflags : UInt16) (blocksize : UInt32) (size : ℕ) : Offer β δ where
  view := view
  serves := t.serves
  legal := Msg.Served p eflags blocksize size
  inv ms := inv (transferred ms)

variable {host : Env Call Resp β} {cfg : Config} {fuel : ℕ} {s : Shared} {p : Plugin}
  {t : Transfer δ} {view : β → δ} {inv : ℕ → δ → Prop} {room size : ℕ} {m : Msg} {ms : List Msg}
  {blocksize : UInt32} {out : Bytes} {d : δ} {x : Vars} {w : Wire β} {i : ℕ}

theorem Mounted.size_lt {ctx : ContextNbd} (h : Mounted cfg ctx p size) : size < 2 ^ 63 := by
  have := h.size
  have := ctx.exportsize.toInt_lt
  omega

theorem Mounted.ne_zero {ctx : ContextNbd} (h : Mounted cfg ctx p size) :
    ctx.minimumBlockSize ≠ 0 := by
  intro hb
  have := h.pos
  rw [hb] at this
  exact absurd this (by decide)

theorem transferred_cons (m : Msg) (ms : List Msg) :
    transferred (m :: ms) = m.transferred + transferred ms := List.sum_cons

theorem payload_eq_nil (h : m.request.type ≠ NBD_CMD_WRITE) : m.payload = [] := by
  rw [← List.length_eq_zero_iff, m.payload_length, dataLength_other h]

/-- A request that lies in the export is accepted. -/
theorem Mounted.inRange {ctx : ContextNbd} (h : Mounted cfg ctx p size) {q : NbdRequest}
    (hstop : q.offset.toNat + q.count.toNat ≤ size) : outOfRange ctx.exportsize q = false := by
  have hsize := h.size
  have hlt := h.size_lt
  have hE := toNat_toUInt64_of_nonneg (e := ctx.exportsize) (by omega)
  rw [outOfRange_eq_false_iff, Nat.mod_eq_of_lt (by omega)]
  omega

/-- What is sent of a buffer is what is stored in that part of it. -/
theorem take_store_take {obj data : Bytes} {n : ℕ} (h : n ≤ obj.length) :
    (store obj data).take n = store (obj.take n) data := by
  rw [store, store, List.take_take, Nat.min_eq_left h, List.length_take,
    Nat.min_eq_left h, List.take_append, List.take_append, List.drop_take,
    List.take_take, Nat.min_self]

/-- What is left to transfer before a chunk is the chunk, and what is left after it. -/
theorem left_succ (cfg : Config) (blocksize : UInt32) (q : NbdRequest) (i n : ℕ) :
    q.count.toNat - q.blocksBefore cfg blocksize i * blocksize.toNat + n =
      q.blocksOf cfg blocksize i * blocksize.toNat +
        (q.count.toNat - q.blocksBefore cfg blocksize (i + 1) * blocksize.toNat + n) := by
  have hb := blocksBefore_mul_le cfg blocksize q (i + 1)
  rw [blocksBefore_succ, Nat.add_mul] at hb ⊢
  omega

/-! ### The loops -/

/-- What holds in the loop of a READ after `i` chunks: what was sent after the reply is one
transfer. -/
structure ReadTransfer (cfg : Config) (blocksize : UInt32) (t : Transfer δ) (view : β → δ)
    (inv : ℕ → δ → Prop) (m : Msg) (ms : List Msg) (out : Bytes) (d : δ) (x : Vars) (w : Wire β)
    (i : ℕ) : Prop where
  /-- So many chunks were served. -/
  serving : x.Serving cfg blocksize m.request i
  /-- The messages to come. -/
  input : w.input = stream ms
  /-- The reply was sent, and the bytes of these chunks. -/
  sent : ∃ data, data.length = m.request.blocksBefore cfg blocksize i * blocksize.toNat ∧
    w.output = out ++ (simpleReply NBD_SUCCESS m.request.handle ++ data) ∧
    t.reads m.request.offset.toNat data d (view w.host)
  /-- The plugin is in order. -/
  inv : inv (m.request.count.toNat - m.request.blocksBefore cfg blocksize i *
    blocksize.toNat + transferred ms) (view w.host)
  /-- The loop is left when all chunks were. -/
  last : x.sendflag = 0 → m.request.blocksBefore cfg blocksize i = m.request.blocks blocksize

/-- What holds in the loop of a WRITE after `i` chunks: what was written is one transfer. -/
structure WriteTransfer (cfg : Config) (blocksize : UInt32) (t : Transfer δ) (view : β → δ)
    (inv : ℕ → δ → Prop) (m : Msg) (ms : List Msg) (out : Bytes) (d : δ) (x : Vars) (w : Wire β)
    (i : ℕ) : Prop where
  /-- So many chunks were served. -/
  serving : x.Serving cfg blocksize m.request i
  /-- The data of the others are to come, and then the messages. -/
  input : w.input = (m.payload ++ stream ms).drop
    (m.request.blocksBefore cfg blocksize i * blocksize.toNat)
  /-- Nothing was sent. -/
  output : w.output = out
  /-- The data of these chunks were written. -/
  written : t.writes m.request.offset.toNat
    (m.payload.take (m.request.blocksBefore cfg blocksize i * blocksize.toNat)) d (view w.host)
  /-- The plugin is in order. -/
  inv : inv (m.request.count.toNat - m.request.blocksBefore cfg blocksize i *
    blocksize.toNat + transferred ms) (view w.host)
  /-- The loop is left when all chunks were. -/
  last : x.sendflag = 0 → m.request.blocksBefore cfg blocksize i = m.request.blocks blocksize

/-- The next chunk of a READ is read: a transfer that follows the one so far. -/
theorem ReadTransfer.pread {handle : Handle} {b' : β} {r : Pread}
    (hp : MakesTransfers host p handle blocksize t view inv cfg.bufferLen size)
    (hm : m.Proper blocksize size) (hlt : size < 2 ^ 63) (hx : x.Ok cfg blocksize)
    (h : ReadTransfer cfg blocksize t view inv m ms out d x w i)
    (hr : host w.host (.pread p handle (x.chunk blocksize).bufblksz x.offset) = (r, b')) :
    r.ret = 0 ∧ inv (m.request.count.toNat - m.request.blocksBefore cfg blocksize (i + 1) *
      blocksize.toNat +
        transferred ms) (view b') ∧
      let z := (x.chunk blocksize).fill r.data
      let data := z.nbdBuffer.take z.byteread.toNat
      data.length = m.request.blocksOf cfg blocksize i * blocksize.toNat ∧
        t.reads (m.request.offset.toNat + m.request.blocksBefore cfg blocksize i * blocksize.toNat)
        data (view w.host)
          (view b') := by
  have hle := hm.chunk_le cfg hlt i
  have hfits := hx.chunk.fits
  have hbytes := hx.chunk.bytes
  have hbuf := hx.chunk.byteread_le_length
  have hleft := h.inv
  rw [left_succ, ← h.serving.blocks] at hleft
  rw [← h.serving.offset, ← h.serving.blocks] at hle
  obtain ⟨hret, hinv, hreads⟩ := hp.pread _ _ _ _ _ _ hr hleft hle hfits
  have hlen : ((x.chunk blocksize).nbdBuffer.take (x.chunk blocksize).byteread.toNat).length =
      (x.chunk blocksize).bufblksz.toNat * blocksize.toNat := by
    rw [List.length_take, Nat.min_eq_left hbuf, hbytes]
  have hdata : ((x.chunk blocksize).fill r.data).nbdBuffer.take (x.chunk blocksize).byteread.toNat =
      store ((x.chunk blocksize).nbdBuffer.take (x.chunk blocksize).byteread.toNat) r.data :=
    take_store_take hbuf
  refine ⟨hret, hinv, ?_, ?_⟩
  · rw [fill_byteread, hdata, length_store, hlen, h.serving.blocks]
  · rw [fill_byteread, hdata, ← hm.offsetOf_mul cfg hlt, ← h.serving.offset]
    exact hreads _ hlen

/-- The data of the next chunk of a WRITE are there. -/
theorem WriteTransfer.byteread_le (ht : m.request.type = NBD_CMD_WRITE) (hx : x.Ok cfg blocksize)
    (h : WriteTransfer cfg blocksize t view inv m ms out d x w i) :
    (x.chunk blocksize).byteread.toNat ≤ w.input.length := by
  have hb := blocksBefore_mul_le cfg blocksize m.request (i + 1)
  have hpay := m.payload_length.trans (dataLength_write ht)
  rw [blocksBefore_succ, Nat.add_mul] at hb
  rw [hx.chunk.bytes, h.serving.blocks, h.input, List.length_drop, List.length_append]
  omega

/-- The data up to the next chunk, and the chunk. -/
theorem WriteTransfer.take_succ (ht : m.request.type = NBD_CMD_WRITE) (hx : x.Ok cfg blocksize)
    (h : WriteTransfer cfg blocksize t view inv m ms out d x w i) :
    m.payload.take (m.request.blocksBefore cfg blocksize (i + 1) * blocksize.toNat) =
      m.payload.take (m.request.blocksBefore cfg blocksize i * blocksize.toNat) ++
        w.input.take (x.chunk blocksize).byteread.toNat := by
  have hpay := m.payload_length.trans (dataLength_write ht)
  have hb := blocksBefore_mul_le cfg blocksize m.request (i + 1)
  rw [blocksBefore_succ, Nat.add_mul] at hb
  rw [h.input, hx.chunk.bytes, h.serving.blocks, blocksBefore_succ, Nat.add_mul, List.take_add,
    List.drop_append_of_le_length (by omega),
    List.take_append_of_le_length (by rw [List.length_drop]; omega)]

/-- The next chunk of a WRITE is written: a transfer that follows the one so far. -/
theorem WriteTransfer.pwrite {handle : Handle} {b' : β} {data : Bytes} {r : ℤ}
    (hpw : p.pwrite = true) (hp : MakesTransfers host p handle blocksize t view inv cfg.bufferLen
      size) (ht : m.request.type = NBD_CMD_WRITE)
    (hm : m.Proper blocksize size) (hlt : size < 2 ^ 63) (hx : x.Ok cfg blocksize)
    (h : WriteTransfer cfg blocksize t view inv m ms out d x w i)
    (hdata : data = w.input.take (x.chunk blocksize).byteread.toNat)
    (hr : host w.host (.pwrite p handle ((x.chunk blocksize).fill data).nbdBuffer
      (x.chunk blocksize).bufblksz (x.chunk blocksize).offset) = (r, b')) :
    r = 0 ∧ inv (m.request.count.toNat - m.request.blocksBefore cfg blocksize (i + 1) *
      blocksize.toNat +
        transferred ms) (view b') ∧ t.writes m.request.offset.toNat
      (m.payload.take (m.request.blocksBefore cfg blocksize (i + 1) * blocksize.toNat)) d
      (view b') := by
  have hle := hm.chunk_le cfg hlt i
  have hfits := hx.chunk.fits
  have hbytes := hx.chunk.bytes
  have hthere := h.byteread_le ht hx
  have hlen : data.length = (x.chunk blocksize).byteread.toNat := by
    rw [hdata, List.length_take, Nat.min_eq_left hthere]
  have hleft := h.inv
  rw [chunk_offset] at hr
  rw [left_succ, ← h.serving.blocks] at hleft
  rw [← h.serving.offset, ← h.serving.blocks] at hle
  obtain ⟨hret, hinv, hwrites⟩ := hp.pwrite hpw _ _ _ _ _ _ _ hr hleft hle hfits (by
    rw [← hbytes, fill_nbdBuffer, length_store, hx.chunk.buffer]
    exact hx.chunk.byteread_le)
  rw [← hbytes, hx.take_fill hlen, h.serving.offset, hm.offsetOf_mul cfg hlt] at hwrites
  have hpay := m.payload_length.trans (dataLength_write ht)
  have hbefore := blocksBefore_mul_le cfg blocksize m.request i
  refine ⟨hret, hinv, ?_⟩
  rw [h.take_succ ht hx, ← hdata]
  refine t.writes_append h.written ?_
  rw [List.length_take, Nat.min_eq_left (by omega)]
  exact hwrites

section Rules

variable {q : NbdRequest}

/-- The chunks of a READ are one transfer. -/
theorem readTransfer_rules
    (hp : MakesTransfers host p s.ctx.handle s.ctx.minimumBlockSize t view inv cfg.bufferLen size)
    (hexp : Mounted cfg s.ctx p size) (hm : m.Proper s.ctx.minimumBlockSize size)
    (ht : m.request.type = NBD_CMD_READ) :
    ReadRules (wire host) s cfg s.ctx.minimumBlockSize
      (fun o _ w _ => (transferOffer t view inv p s.ctx.eflags s.ctx.minimumBlockSize size).Answered
      m ms out d o w) (fun x w _ => ∃ i, ReadTransfer cfg s.ctx.minimumBlockSize t view inv m
      ms out d x w i) where
  leave := by
    rintro x w h - ⟨i, hi⟩ h0
    obtain ⟨data, hlen, hout, hreads⟩ := hi.sent
    have hinv := hi.inv
    rw [hi.last h0, hm.blocks_mul, Nat.sub_self, Nat.zero_add] at hinv
    rw [hi.last h0, hm.blocks_mul] at hlen
    refine ⟨⟨x, rfl⟩, hi.input, ⟨_, hout, ?_⟩, hinv⟩
    exact (if_pos ht).mpr ⟨data, hlen, rfl, hreads⟩
  null := by
    rintro x w h - - - hnone
    rw [hexp.plugin] at hnone
    cases hnone
  sent := by
    rintro x w h p' r w₁ k w₂ hx ⟨i, hi⟩ hne hp' hr - z hk -
    cases hexp.plugin.symm.trans hp'
    obtain ⟨hr', hin, hout⟩ := wire_host_eq hr rfl rfl
    obtain ⟨-, rfl⟩ := wire_send_eq hk
    obtain ⟨-, hinv, hlen', hreads'⟩ := hi.pread hp hm hexp.size_lt hx hr'
    obtain ⟨data, hlen, hsent, hreads⟩ := hi.sent
    refine ⟨i + 1, hi.serving.advance, hin.trans hi.input, ?_, hinv, fun h0 =>
      blocksBefore_of_le (hi.serving.blocks_le hne h0)⟩
    refine ⟨data ++ z.nbdBuffer.take z.byteread.toNat, ?_, ?_, ?_⟩
    · rw [List.length_append, hlen, hlen', blocksBefore_succ, Nat.add_mul]
    · change w₁.output ++ z.nbdBuffer.take z.byteread.toNat = _
      rw [hout, hsent]
      simp only [List.append_assoc]
    · refine t.reads_append hreads ?_
      rw [hlen]
      exact hreads'
  cut := by
    rintro x w h p r w₁ k w₂ hx - - - - - z hk hne hz
    refine absurd ?_ hne
    rw [(wire_send_eq hk).1, hz.length_take]
  again := by
    rintro x w h p' r w₁ hx ⟨i, hi⟩ - hp' hr hne -
    cases hexp.plugin.symm.trans hp'
    exact absurd (hi.pread hp hm hexp.size_lt hx (wire_host_eq hr rfl rfl).1).1 hne
  fail := by
    rintro x w h p' r w₁ hx ⟨i, hi⟩ - hp' hr hne -
    cases hexp.plugin.symm.trans hp'
    exact absurd (hi.pread hp hm hexp.size_lt hx (wire_host_eq hr rfl rfl).1).1 hne

/-- The chunks of a WRITE are one transfer. -/
theorem writeTransfer_rules
    (hp : MakesTransfers host p s.ctx.handle s.ctx.minimumBlockSize t view inv cfg.bufferLen size)
    (hexp : Mounted cfg s.ctx p size) (hm : m.Served p s.ctx.eflags s.ctx.minimumBlockSize size)
    (ht : m.request.type = NBD_CMD_WRITE) : WriteRules (wire host) s cfg s.ctx.minimumBlockSize
      (Post.thenReply (wire host) m.request.handle fun o _ w _ =>
        (transferOffer t view inv p s.ctx.eflags s.ctx.minimumBlockSize size).Answered m ms out d o
        w)
      (fun x e w _ => e = NBD_SUCCESS ∧ ∃ i, WriteTransfer cfg s.ctx.minimumBlockSize t view inv m
      ms out d x w i) where
  leave := by
    rintro x e w h - ⟨rfl, i, hi⟩ h0 k w₁ hk
    obtain ⟨-, rfl⟩ := wire_send_eq hk
    have hpay := m.payload_length.trans (dataLength_write ht)
    have hnr : m.request.type ≠ NBD_CMD_READ := by rw [ht]; decide
    have hin := hi.input
    have hwritten := hi.written
    have hinv := hi.inv
    rw [hi.last h0, hm.blocks_mul, Nat.sub_self, Nat.zero_add] at hinv
    rw [hi.last h0, hm.blocks_mul] at hin hwritten
    rw [List.take_of_length_le (Nat.le_of_eq hpay)] at hwritten
    refine ⟨⟨x, rfl⟩, hin.trans (List.drop_left' hpay), ⟨_, congrArg (· ++ _) hi.output, ?_⟩, hinv⟩
    exact (if_neg hnr).mpr ((if_pos ht).mpr ⟨rfl, hwritten⟩)
  null := by
    rintro x e w h r w₁ - - - hnone - -
    have := hnone p hexp.plugin
    rw [(hm.write ht).1] at this
    cases this
  written := by
    rintro x e w h p' r w₁ k w₂ hx ⟨rfl, i, hi⟩ hne hp' - hrecv - z hk -
    cases hexp.plugin.symm.trans hp'
    obtain ⟨-, hdata, rfl⟩ := wire_recv_eq hrecv (hi.byteread_le ht hx)
    obtain ⟨hk', hin, hout⟩ := wire_host_eq hk rfl rfl
    obtain ⟨-, hinv, hwritten⟩ :=
      hi.pwrite (hm.write ht).1 hp ht hm.toProper hexp.size_lt hx hdata hk'
    refine ⟨rfl, i + 1, hi.serving.advance, ?_, hout.trans hi.output, hwritten, hinv, fun h0 =>
      blocksBefore_of_le (hi.serving.blocks_le hne h0)⟩
    rw [hin]
    dsimp only
    rw [hi.input, hx.chunk.bytes, hi.serving.blocks, List.drop_drop, blocksBefore_succ, Nat.add_mul]
  failed := by
    rintro x e w h p' r w₁ k w₂ hx ⟨rfl, i, hi⟩ - hp' - hrecv - z hk hfail
    cases hexp.plugin.symm.trans hp'
    obtain ⟨-, hdata, rfl⟩ := wire_recv_eq hrecv (hi.byteread_le ht hx)
    exact absurd (hi.pwrite (hm.write ht).1 hp ht hm.toProper hexp.size_lt hx hdata
      (wire_host_eq hk rfl rfl).1).1 hfail
  cut := by
    rintro x e w h r w₁ hx ⟨rfl, i, hi⟩ - hrecv hne
    exact absurd (wire_recv_eq hrecv (hi.byteread_le ht hx)).1 hne

end Rules

/-! ### A round -/

/-- A round transfers what the message asks for. -/
theorem round_transfers {c : ReqHead (Wire β)}
    (hp : MakesTransfers host p c.mem.ctx.handle c.mem.ctx.minimumBlockSize t view
      inv cfg.bufferLen size)
    (hexp : Mounted cfg c.mem.ctx p size) (hc : c.x.Ok cfg c.mem.ctx.minimumBlockSize)
    (h0 : c.x.sendflag = 0) (hfuel : loopFuel cfg ≤ fuel) (hin : c.env.input = stream (m :: ms))
    (hm : m.Served p c.mem.ctx.eflags c.mem.ctx.minimumBlockSize size)
    (hinv : inv (transferred (m :: ms)) (view c.env.host)) :
    wp (wire host) (serveIn cfg fuel c.mem c.x) (fun o _ w' _ =>
      (transferOffer t view inv p c.mem.ctx.eflags c.mem.ctx.minimumBlockSize size).Answered m ms
      c.env.output
        (view c.env.host) o w') c.mem c.env := by
  rw [stream_cons] at hin
  have hq := requestAt_wire host hc.request hin m.magic
  have hrest : (envAt (wire host) c m.request).input = m.payload ++ stream ms := by
    rw [envAt_wire_input (by simp [hin]), hin, List.drop_left' (by simp)]
  have hout : (envAt (wire host) c m.request).output = c.env.output := envAt_wire_output
  have hview : view (envAt (wire host) c m.request).host = view c.env.host := by
    rw [envAt_wire_host, hp.note]
  have hrange := hexp.inRange hm.stop
  have hacc (ht : m.request.type = NBD_CMD_WRITE) : writeError c.mem.ctx m.request = NBD_SUCCESS :=
    writeError_eq_success.mpr ⟨(hm.write ht).2, hrange⟩
  have hfirst (ht : m.request.type = NBD_CMD_READ ∨ m.request.type = NBD_CMD_WRITE) :
      inv (m.request.count.toNat - m.request.blocksBefore cfg c.mem.ctx.minimumBlockSize 0 *
        c.mem.ctx.minimumBlockSize.toNat + transferred ms)
        (view (envAt (wire host) c m.request).host) := by
    rw [transferred_cons, Msg.transferred, if_pos ht] at hinv
    rw [blocksBefore_zero, Nat.zero_mul, Nat.sub_zero, hview]
    exact hinv
  have H : RoundRules (wire host) cfg c.mem.ctx.minimumBlockSize c m.request
      (fun o _ w' _ =>
      (transferOffer t view inv p c.mem.ctx.eflags c.mem.ctx.minimumBlockSize size).Answered m ms
        c.env.output (view c.env.host) o w')
      (fun x w _ => ∃ i, ReadTransfer cfg c.mem.ctx.minimumBlockSize t view inv m ms c.env.output
        (view c.env.host) x w i)
      (fun x e w _ => e = NBD_SUCCESS ∧ ∃ i, WriteTransfer cfg c.mem.ctx.minimumBlockSize t view
        inv m ms c.env.output (view c.env.host) x w i) :=
    { readLoop := readTransfer_rules hp hexp hm.toProper
      readRefused := fun _ hr => by rw [hrange] at hr; cases hr
      readAccepted := by
        rintro ht - - k w₁ hk
        obtain ⟨-, rfl⟩ := wire_send_eq hk
        refine ⟨0, accept_serving, ?_, ⟨[], ?_, ?_, ?_⟩, hfirst (.inl ht), fun h0 => ?_⟩
        · rw [hrest, payload_eq_nil (by rw [ht]; decide)]
          rfl
        · rw [blocksBefore_zero, Nat.zero_mul, List.length_nil]
        · rw [List.append_nil, hout]
        · rw [hview]
          exact t.reads_nil _ _
        · exact absurd h0 (by rw [accept_sendflag]; decide)
      readZero := fun _ _ hz => absurd hz hexp.ne_zero
      writeLoop := writeTransfer_rules hp hexp hm
      writeRefused := fun ht hr => absurd (hacc ht) hr
      writeAccepted := by
        rintro ht - -
        refine ⟨rfl, 0, accept_serving, ?_, hout, ?_, hfirst (.inr ht), fun h0 => ?_⟩
        · rw [blocksBefore_zero, Nat.zero_mul]
          exact hrest
        · rw [blocksBefore_zero, Nat.zero_mul, List.take_zero, hview]
          exact t.writes_nil _ _
        · exact absurd h0 (by rw [accept_sendflag]; decide)
      writeZero := fun _ _ hz => absurd hz hexp.ne_zero
      disc := fun ht => by
        rcases hm.type with h | h | h <;> exact absurd (h.symm.trans ht) (by decide)
      flush := by
        rintro ht p' r w₁ k w₂ hp' hf hr hk
        cases hexp.plugin.symm.trans hp'
        obtain ⟨hr', hw₁, ho₁⟩ := wire_host_eq hr rfl rfl
        obtain ⟨-, rfl⟩ := wire_send_eq hk
        obtain ⟨rfl, hsame⟩ := hp.flush hf _ _ _ hr'
        have hnr : m.request.type ≠ NBD_CMD_READ := by rw [ht]; decide
        have hnw : m.request.type ≠ NBD_CMD_WRITE := by rw [ht]; decide
        refine ⟨⟨_, rfl⟩, ?_, ⟨_, congrArg (· ++ _) (ho₁.trans hout), ?_⟩, ?_⟩
        · rw [hw₁, hrest, payload_eq_nil hnw]
          rfl
        · exact (if_neg hnr).mpr ((if_neg hnw).mpr ⟨rfl, hsame.trans hview⟩)
        · rw [transferred_cons, Msg.transferred, if_neg (not_or.mpr ⟨hnr, hnw⟩),
            Nat.zero_add] at hinv
          change inv (transferred ms) (view w₁.host)
          rw [hsame, hview]
          exact hinv
      flushNull := fun ht hnone => by
        have := hnone p hexp.plugin
        rw [hm.flush ht] at this
        cases this
      other := fun h₁ h₂ _ h₄ => absurd hm.type (by simp [h₁, h₂, h₄]) }
  exact H.round_total hq hexp.pos hexp.fits hfuel hc h0

/-- The server keeps what a plugin offers that makes transfers. -/
theorem transferOffer_kept
    (hp : MakesTransfers host p s.ctx.handle s.ctx.minimumBlockSize t view inv cfg.bufferLen size)
    (hexp : Mounted cfg s.ctx p size) :
    (transferOffer t view inv p s.ctx.eflags s.ctx.minimumBlockSize size).Kept host cfg s.ctx where
  pos := hexp.pos
  fits := hexp.fits
  note := hp.note
  uninit := hp.uninit
  skip := by
    intro m ms d hm h
    have htype : m.request.type = NBD_CMD_DISC := of_decide_eq_true hm
    have hnone : m.transferred = 0 := if_neg (by rw [htype]; decide)
    change inv (transferred (m :: ms)) d at h
    rwa [transferred_cons, hnone, Nat.zero_add] at h
  round := by
    intro fuel c m ms hc hx h0 hfuel hin _ hm hinv
    have hblock : c.mem.ctx.minimumBlockSize = s.ctx.minimumBlockSize := by rw [hc]
    have hhandle : c.mem.ctx.handle = s.ctx.handle := by rw [hc]
    have heflags : c.mem.ctx.eflags = s.ctx.eflags := by rw [hc]
    have hexp' : Mounted cfg c.mem.ctx p size := by
      rw [hc]
      exact ⟨hexp.pos, hexp.fits, hexp.plugin, hexp.size⟩
    rw [← hblock, ← hhandle] at hp
    rw [← hblock, ← heflags] at hm ⊢
    exact round_transfers hp hexp' hx h0 hfuel hin hm hinv

end LwNBD
