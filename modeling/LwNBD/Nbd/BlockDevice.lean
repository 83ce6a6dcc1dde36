import LwNBD.Data.Disk
import LwNBD.Nbd.Stream

/-!
# The block device

What the transmission phase is for: to serve a block device over the wire. Seen by a client
whose requests are of whole blocks and lie in the export, over a lossless transport and with
a plugin that works, it is a disk: it answers each request with success, a READ's reply has
the bytes the disk has there, and a WRITE replaces them.

## The model

* `IsBlockDevice` — the plugin works: its callbacks succeed, and read and write an array of
  blocks, whose bytes are `content`.
* `Msg.op` — what a message asks of a disk; `replies`, `contentAfter` — what an ideal disk
  answers to messages, and has afterwards.

## What is proved

* `readAsDisk_rules`, `writeAsDisk_rules` — what the chunks of a READ and a WRITE keep.
* `round_serves` — a round does to the plugin what the message asks, and answers so.
* `refines_disk` — a whole run answers as the ideal disk does, and leaves the content the
  ideal disk has.
-/

namespace LwNBD

open Resumption

variable {β : Type}

/-! ### What is assumed, and what is to be shown -/

/-- The plugin `p`, with handle `handle`, is an array of blocks whose bytes are `content`. -/
structure IsBlockDevice (host : Env Call Resp β) (p : Plugin) (handle : Handle) (blocksize : UInt32)
    (content : β → Bytes) : Prop where
  /-- `pread` reads blocks. -/
  pread : ∀ b count offset r b', host b (.pread p handle count offset) = (r, b') →
    (offset.toNat + count.toNat) * blocksize.toNat ≤ (content b).length →
    r.ret = 0 ∧ r.data = (content b).slice (offset.toNat * blocksize.toNat)
      (count.toNat * blocksize.toNat) ∧ content b' = content b
  /-- `pwrite` writes blocks. -/
  pwrite : ∀ b buf count offset r b', host b (.pwrite p handle buf count offset) = (r, b') →
    (offset.toNat + count.toNat) * blocksize.toNat ≤ (content b).length →
    count.toNat * blocksize.toNat ≤ buf.length →
    r = 0 ∧ content b' =
      (content b).overwrite (offset.toNat * blocksize.toNat)
      (buf.take (count.toNat * blocksize.toNat))
  /-- `flush` succeeds. -/
  flush : ∀ b r b', host b (.flush p handle) = (r, b') → r = 0 ∧ content b' = content b
  /-- Notes are nothing to it. -/
  note : ∀ b n, content (host b (.note n)).2 = content b
  /-- Nor are the server's variables. -/
  uninit : ∀ b n, content (host b (.uninit n)).2 = content b

/-- What a message asks of a disk. -/
def Msg.op (m : Msg) : Disk.Op UInt8 :=
  if m.request.type = NBD_CMD_READ then .read m.request.offset.toNat m.request.count.toNat
  else if m.request.type = NBD_CMD_WRITE then .write m.request.offset.toNat m.payload
  else .flush

/-- The replies of the ideal disk: success, and the bytes that are read. -/
def replies (content : Bytes) : List Msg → Bytes
  | [] => []
  | m :: ms => simpleReply NBD_SUCCESS m.request.handle ++ m.op.result content ++
      replies (m.op.apply content) ms

/-- The content of the ideal disk after the messages. -/
def contentAfter (content : Bytes) (ms : List Msg) : Bytes := Disk.applyAll content (ms.map Msg.op)

/-- A message that a client may send: a READ, a WRITE or a FLUSH, of whole blocks, in an export
of `size` bytes. -/
structure Msg.Proper (blocksize : UInt32) (size : ℕ) (m : Msg) : Prop where
  /-- It is a READ, a WRITE or a FLUSH. -/
  type : m.request.type = NBD_CMD_READ ∨ m.request.type = NBD_CMD_WRITE ∨
    m.request.type = NBD_CMD_FLUSH
  /-- It begins with a block. -/
  offset : blocksize.toNat ∣ m.request.offset.toNat
  /-- It ends with a block. -/
  count : blocksize.toNat ∣ m.request.count.toNat
  /-- It lies in the export. -/
  stop : m.request.offset.toNat + m.request.count.toNat ≤ size

/-! ### The export -/

variable {host : Env Call Resp β} {cfg : Config} {fuel : ℕ} {s : Shared} {w : Wire β}
variable {c : ReqHead (Wire β)} {p : Plugin} {content : β → Bytes} {m : Msg} {ms : List Msg}

/-- What holds of an export that is served as a block device: it can be read, written and
flushed, and has the size of its content. -/
structure Exports (cfg : Config) (ctx : ContextNbd) (p : Plugin) (size : ℕ) : Prop where
  /-- Blocks have bytes. -/
  pos : 1 ≤ ctx.minimumBlockSize.toNat
  /-- A block fits the buffer. -/
  fits : ctx.minimumBlockSize.toNat ≤ cfg.bufferLen
  /-- It is served by `p`. -/
  plugin : ctx.p = some p
  /-- It can be written. -/
  pwrite : p.pwrite = true
  /-- It can be flushed. -/
  flush : p.flush = true
  /-- It is not read-only. -/
  writable : hasReadOnly ctx.eflags = false
  /-- Its size is that of its content. -/
  size : (size : ℤ) = ctx.exportsize.toInt

theorem Exports.size_lt {ctx : ContextNbd} {size : ℕ} (h : Exports cfg ctx p size) :
    size < 2 ^ 63 := by
  have := h.size
  have := ctx.exportsize.toInt_lt
  omega

theorem Exports.ne_zero {ctx : ContextNbd} {size : ℕ} (h : Exports cfg ctx p size) :
    ctx.minimumBlockSize ≠ 0 := by
  intro hb
  have := h.pos
  rw [hb] at this
  exact absurd this (by decide)

/-- A request that lies in the export is accepted. -/
theorem Exports.inRange {ctx : ContextNbd} {size : ℕ} (h : Exports cfg ctx p size) {q : NbdRequest}
    (hstop : q.offset.toNat + q.count.toNat ≤ size) : outOfRange ctx.exportsize q = false := by
  have hsize := h.size
  have hlt := h.size_lt
  have hE := toNat_toUInt64_of_nonneg (e := ctx.exportsize) (by omega)
  rw [outOfRange_eq_false_iff, Nat.mod_eq_of_lt (by omega)]
  omega

/-! ### A chunk -/

section Chunk

variable {blocksize : UInt32} {size : ℕ} {handle : Handle} {q : NbdRequest}
  {x : Vars} {i : ℕ} {b b' : β}

variable (cfg) in
theorem Msg.Proper.offsetOf_mul (hm : m.Proper blocksize size) (hlt : size < 2 ^ 63) (i : ℕ) :
    m.request.offsetOf cfg blocksize i * blocksize.toNat =
      m.request.offset.toNat + m.request.blocksBefore cfg blocksize i * blocksize.toNat := by
  have hs := hm.stop
  have h1 : m.request.offset.toNat / blocksize.toNat ≤ m.request.offset.toNat := Nat.div_le_self _ _
  have h2 : m.request.blocksBefore cfg blocksize i ≤ m.request.count.toNat :=
    Nat.le_trans (Nat.min_le_right _ _) (Nat.div_le_self _ _)
  rw [NbdRequest.offsetOf, Nat.mod_eq_of_lt (by omega), Nat.add_mul, Nat.div_mul_cancel hm.offset]

variable (cfg) in
theorem Msg.Proper.chunk_le (hm : m.Proper blocksize size) (hlt : size < 2 ^ 63) (i : ℕ) :
    (m.request.offsetOf cfg blocksize i + m.request.blocksOf cfg blocksize i) *
    blocksize.toNat ≤ size := by
  have hb := blocksBefore_mul_le cfg blocksize m.request (i + 1)
  have hs := hm.stop
  rw [blocksBefore_succ, Nat.add_mul] at hb
  rw [Nat.add_mul, hm.offsetOf_mul cfg hlt]
  omega

theorem Msg.Proper.blocks_mul (hm : m.Proper blocksize size) :
    m.request.blocks blocksize * blocksize.toNat = m.request.count.toNat :=
  Nat.div_mul_cancel hm.count

/-- The plugin reads a chunk that lies in the content. -/
theorem IsBlockDevice.pread_chunk (hdev : IsBlockDevice host p handle blocksize content)
    (hs : x.Serving cfg blocksize q i)
    (hle : (q.offsetOf cfg blocksize i + q.blocksOf cfg blocksize i) *
      blocksize.toNat ≤ (content b).length)
    {r : Pread} (hk : host b (.pread p handle (x.chunk blocksize).bufblksz x.offset) = (r, b')) :
    r.ret = 0 ∧ r.data = (content b).slice (q.offsetOf cfg blocksize i * blocksize.toNat)
      (q.blocksOf cfg blocksize i * blocksize.toNat) ∧ content b' = content b := by
  rw [← hs.offset, ← hs.blocks] at hle ⊢
  exact hdev.pread _ _ _ _ _ hk hle

/-- The plugin writes a chunk that lies in the content. -/
theorem IsBlockDevice.pwrite_chunk (hdev : IsBlockDevice host p handle blocksize content)
    (hx : x.Ok cfg blocksize) (hs : x.Serving cfg blocksize q i)
    (hle : (q.offsetOf cfg blocksize i + q.blocksOf cfg blocksize i) *
      blocksize.toNat ≤ (content b).length)
    {d : Bytes} (hd : d.length = (x.chunk blocksize).byteread.toNat) {r : ℤ}
    (hk : host b (.pwrite p handle ((x.chunk blocksize).fill d).nbdBuffer
      (x.chunk blocksize).bufblksz (x.chunk blocksize).offset) = (r, b')) :
    r = 0 ∧ content b' = (content b).overwrite (q.offsetOf cfg blocksize i * blocksize.toNat)
    d := by
  rw [chunk_offset] at hk
  have hbytes := hx.chunk.bytes
  rw [← hs.offset, ← hs.blocks] at hle
  obtain ⟨hr, hcont⟩ := hdev.pwrite _ _ _ _ _ _ hk hle (by
    rw [← hbytes, fill_nbdBuffer, length_store, hx.chunk.buffer]
    exact hx.chunk.byteread_le)
  rw [← hbytes, hx.take_fill hd, hs.offset] at hcont
  exact ⟨hr, hcont⟩

end Chunk

/-! ### The loops -/

section Loops

/-- What is to be shown of a round: it goes on, with messages `ms` to come, and did what `m`
asks of the disk `d`. -/
structure ServedAsDisk (content : β → Bytes) (m : Msg) (ms : List Msg) (out d : Bytes)
    (o : Outcome (Ctl Vars ℤ)) (w : Wire β) : Prop where
  /-- It goes on. -/
  next : ∃ x, o = .ret (.next x)
  /-- The messages to come. -/
  input : w.input = stream ms
  /-- The answer was sent. -/
  output : w.output = out ++ (simpleReply NBD_SUCCESS m.request.handle ++ m.op.result d)
  /-- The plugin has the content the disk has. -/
  after : content w.host = m.op.apply d

/-- What holds in the loop of a READ after `i` chunks. -/
structure ReadAsDisk (cfg : Config) (blocksize : UInt32) (content : β → Bytes)
    (m : Msg) (ms : List Msg) (out d : Bytes) (x : Vars) (w : Wire β) (i : ℕ) : Prop where
  /-- So many chunks were served. -/
  serving : x.Serving cfg blocksize m.request i
  /-- The messages to come. -/
  input : w.input = stream ms
  /-- The reply was sent, and the bytes the disk has in these chunks. -/
  output : w.output = out ++ (simpleReply NBD_SUCCESS m.request.handle ++
    d.slice m.request.offset.toNat (m.request.blocksBefore cfg blocksize i * blocksize.toNat))
  /-- The content is as it was. -/
  same : content w.host = d
  /-- The loop is left when all chunks were. -/
  last : x.sendflag = 0 → m.request.blocksBefore cfg blocksize i = m.request.blocks blocksize

/-- What holds in the loop of a WRITE after `i` chunks. -/
structure WriteAsDisk (cfg : Config) (blocksize : UInt32) (content : β → Bytes)
    (m : Msg) (ms : List Msg) (out d : Bytes) (x : Vars) (w : Wire β) (i : ℕ) : Prop where
  /-- So many chunks were served. -/
  serving : x.Serving cfg blocksize m.request i
  /-- The data of the others are to come, and then the messages. -/
  input : w.input = (m.payload ++ stream ms).drop
    (m.request.blocksBefore cfg blocksize i * blocksize.toNat)
  /-- Nothing was sent. -/
  output : w.output = out
  /-- The data of these chunks were written. -/
  written : content w.host = d.overwrite m.request.offset.toNat
    (m.payload.take (m.request.blocksBefore cfg blocksize i * blocksize.toNat))
  /-- The loop is left when all chunks were. -/
  last : x.sendflag = 0 → m.request.blocksBefore cfg blocksize i = m.request.blocks blocksize

variable {out d : Bytes} {x : Vars} {i : ℕ}

theorem ReadAsDisk.step {w w' : Wire β} {z : Vars} {data : Bytes} {blocksize : UInt32}
    (hm : m.Proper blocksize d.length) (hlt : d.length < 2 ^ 63)
    (h : ReadAsDisk cfg blocksize content m ms out d x w i) (hne : x.sendflag ≠ 0)
    (hz : z = ((x.chunk blocksize).fill data).advance cfg) (hin : w'.input = w.input)
    (hout : w'.output = w.output ++ d.slice (m.request.offsetOf cfg blocksize i * blocksize.toNat)
      (m.request.blocksOf cfg blocksize i * blocksize.toNat))
    (hhost : content w'.host = content w.host) :
    ReadAsDisk cfg blocksize content m ms out d z w' (i + 1) := by
  subst hz
  refine ⟨h.serving.advance, hin.trans h.input, ?_, hhost.trans h.same, fun h0 =>
    blocksBefore_of_le (h.serving.blocks_le hne h0)⟩
  rw [hout, h.output, hm.offsetOf_mul cfg hlt, List.append_assoc, List.append_assoc,
    List.slice_append_slice, ← Nat.add_mul, ← blocksBefore_succ]

theorem ReadAsDisk.pread {w : Wire β} {blocksize : UInt32} {handle : Handle} {b' : β}
    (hdev : IsBlockDevice host p handle blocksize content) (hm : m.Proper blocksize d.length)
    (hlt : d.length < 2 ^ 63) (h : ReadAsDisk cfg blocksize content m ms out d x w i) {r : Pread}
    (hr : host w.host (.pread p handle (x.chunk blocksize).bufblksz x.offset) = (r, b')) :
    r.ret = 0 ∧ r.data = d.slice (m.request.offsetOf cfg blocksize i * blocksize.toNat)
      (m.request.blocksOf cfg blocksize i * blocksize.toNat) ∧ content b' = d := by
  have hle := hm.chunk_le cfg hlt i
  rw [← h.same] at hle ⊢
  exact hdev.pread_chunk h.serving hle hr

/-- The data of the next chunk of a WRITE are there. -/
theorem WriteAsDisk.byteread_le {w : Wire β} {blocksize : UInt32}
    (ht : m.request.type = NBD_CMD_WRITE) (hx : x.Ok cfg blocksize)
    (h : WriteAsDisk cfg blocksize content m ms out d x w i) :
    (x.chunk blocksize).byteread.toNat ≤ w.input.length := by
  have hb := blocksBefore_mul_le cfg blocksize m.request (i + 1)
  have hpay := m.payload_length.trans (dataLength_write ht)
  rw [blocksBefore_succ, Nat.add_mul] at hb
  rw [hx.chunk.bytes, h.serving.blocks, h.input, List.length_drop, List.length_append]
  omega

/-- What was written leaves the size of the content. -/
theorem WriteAsDisk.length_content {w : Wire β} {blocksize : UInt32}
    (hm : m.Proper blocksize d.length) (h : WriteAsDisk cfg blocksize content m ms out d x w i) :
    (content w.host).length = d.length := by
  rw [h.written]
  refine List.length_overwrite ?_
  have hb := blocksBefore_mul_le cfg blocksize m.request i
  have hs := hm.stop
  have ht :=
    List.length_take_le (m.request.blocksBefore cfg blocksize i * blocksize.toNat) m.payload
  omega

theorem WriteAsDisk.step {w w' : Wire β} {z : Vars} {data : Bytes} {blocksize : UInt32}
    (ht : m.request.type = NBD_CMD_WRITE) (hm : m.Proper blocksize d.length)
    (hlt : d.length < 2 ^ 63) (hx : x.Ok cfg blocksize)
    (h : WriteAsDisk cfg blocksize content m ms out d x w i) (hne : x.sendflag ≠ 0)
    (hz : z = ((x.chunk blocksize).fill data).advance cfg)
    (hdata : data = w.input.take (x.chunk blocksize).byteread.toNat)
    (hin : w'.input = w.input.drop (x.chunk blocksize).byteread.toNat) (hout : w'.output = w.output)
    (hhost : content w'.host =
      (content w.host).overwrite (m.request.offsetOf cfg blocksize i * blocksize.toNat) data) :
    WriteAsDisk cfg blocksize content m ms out d z w' (i + 1) := by
  subst hz
  have hpay := m.payload_length.trans (dataLength_write ht)
  have hb := blocksBefore_mul_le cfg blocksize m.request (i + 1)
  have hs := hm.stop
  rw [hx.chunk.bytes, h.serving.blocks, h.input] at hdata hin
  rw [blocksBefore_succ, Nat.add_mul] at hb
  refine ⟨h.serving.advance, ?_, hout.trans h.output, ?_, fun h0 =>
    blocksBefore_of_le (h.serving.blocks_le hne h0)⟩
  · rw [hin, List.drop_drop, blocksBefore_succ, Nat.add_mul]
  · have hnext : m.payload.take (m.request.blocksBefore cfg blocksize (i + 1) * blocksize.toNat) =
        m.payload.take (m.request.blocksBefore cfg blocksize i * blocksize.toNat) ++ data := by
      rw [blocksBefore_succ, Nat.add_mul, List.take_add, hdata,
        List.drop_append_of_le_length (by omega),
        List.take_append_of_le_length (by rw [List.length_drop]; omega)]
    have hbefore := blocksBefore_mul_le cfg blocksize m.request i
    rw [hhost, h.written, hnext, ← List.overwrite_overwrite (by omega), List.length_take,
      Nat.min_eq_left (by omega), hm.offsetOf_mul cfg hlt]

/-- The chunks of a READ. -/
theorem readAsDisk_rules (hdev : IsBlockDevice host p s.ctx.handle s.ctx.minimumBlockSize content)
    (hexp : Exports cfg s.ctx p d.length) (hm : m.Proper s.ctx.minimumBlockSize d.length)
    (ht : m.request.type = NBD_CMD_READ) :
    ReadRules (wire host) s cfg s.ctx.minimumBlockSize
    (fun o _ w _ => ServedAsDisk content m ms out d o w)
      (fun x w _ => ∃ i, ReadAsDisk cfg s.ctx.minimumBlockSize content m ms out d x w i) where
  leave := by
    rintro x w h - ⟨i, hi⟩ h0
    refine ⟨⟨x, rfl⟩, hi.input, ?_, ?_⟩
    · rw [hi.output, hi.last h0, hm.blocks_mul, Msg.op, if_pos ht]
      rfl
    · rw [hi.same, Msg.op, if_pos ht]
      rfl
  null := by
    rintro x w h - - - hp
    rw [hexp.plugin] at hp
    cases hp
  sent := by
    rintro x w h p' r w₁ k w₂ hx ⟨i, hi⟩ hne hp hr - z hk -
    cases hexp.plugin.symm.trans hp
    obtain ⟨hr', hin, hout⟩ := wire_host_eq hr rfl rfl
    obtain ⟨-, rfl⟩ := wire_send_eq hk
    obtain ⟨-, hdata, hcont⟩ := hi.pread hdev hm hexp.size_lt hr'
    have hle := hm.chunk_le cfg hexp.size_lt i
    have hlen : r.data.length = (x.chunk s.ctx.minimumBlockSize).byteread.toNat := by
      rw [hdata, hx.chunk.bytes, hi.serving.blocks,
        List.length_slice (by rw [← Nat.add_mul]; exact hle)]
    have hsent : z.nbdBuffer.take z.byteread.toNat = r.data := hx.take_fill hlen
    refine ⟨i + 1, hi.step hm hexp.size_lt hne rfl hin ?_ (hcont.trans hi.same.symm)⟩
    change w₁.output ++ z.nbdBuffer.take z.byteread.toNat = _
    rw [hsent, hout, hdata]
  cut := by
    rintro x w h p r w₁ k w₂ hx - - - - - z hk hne hz
    refine absurd ?_ hne
    rw [(wire_send_eq hk).1, hz.length_take]
  again := by
    rintro x w h p' r w₁ - ⟨i, hi⟩ - hp hr hne -
    cases hexp.plugin.symm.trans hp
    exact absurd (hi.pread hdev hm hexp.size_lt (wire_host_eq hr rfl rfl).1).1 hne
  fail := by
    rintro x w h p' r w₁ - ⟨i, hi⟩ - hp hr hne -
    cases hexp.plugin.symm.trans hp
    exact absurd (hi.pread hdev hm hexp.size_lt (wire_host_eq hr rfl rfl).1).1 hne

/-- The chunks of a WRITE. -/
theorem writeAsDisk_rules (hdev : IsBlockDevice host p s.ctx.handle s.ctx.minimumBlockSize content)
    (hexp : Exports cfg s.ctx p d.length) (hm : m.Proper s.ctx.minimumBlockSize d.length)
    (ht : m.request.type = NBD_CMD_WRITE) :
    WriteRules (wire host) s cfg s.ctx.minimumBlockSize
      (Post.thenReply (wire host) m.request.handle fun o _ w _ =>
      ServedAsDisk content m ms out d o w) (fun x e w _ => e = NBD_SUCCESS ∧
        ∃ i, WriteAsDisk cfg s.ctx.minimumBlockSize content m ms out d x w i) where
  leave := by
    rintro x e w h - ⟨rfl, i, hi⟩ h0 k w₁ hk
    obtain ⟨-, rfl⟩ := wire_send_eq hk
    have hpay := m.payload_length.trans (dataLength_write ht)
    have hnr : m.request.type ≠ NBD_CMD_READ := by rw [ht]; decide
    have hin := hi.input
    have hcont := hi.written
    rw [hi.last h0, hm.blocks_mul] at hin hcont
    refine ⟨⟨x, rfl⟩, ?_, ?_, ?_⟩
    · exact hin.trans (List.drop_left' hpay)
    · rw [hi.output, Msg.op, if_neg hnr, if_pos ht]
      exact congrArg _ (List.append_nil _).symm
    · rw [hcont, Msg.op, if_neg hnr, if_pos ht, List.take_of_length_le (Nat.le_of_eq hpay)]
      rfl
  null := by
    rintro x e w h r w₁ - - - hp - -
    have := hp p hexp.plugin
    rw [hexp.pwrite] at this
    cases this
  written := by
    rintro x e w h p' r w₁ k w₂ hx ⟨rfl, i, hi⟩ hne hp - hrecv - z hk -
    cases hexp.plugin.symm.trans hp
    have hthere := hi.byteread_le ht hx
    obtain ⟨-, hdata, rfl⟩ := wire_recv_eq hrecv hthere
    obtain ⟨hk', hin, hout⟩ := wire_host_eq hk rfl rfl
    have hlen : r.data.length = (x.chunk s.ctx.minimumBlockSize).byteread.toNat := by
      rw [hdata, List.length_take, Nat.min_eq_left hthere]
    have hle := hm.chunk_le cfg hexp.size_lt i
    rw [← hi.length_content hm] at hle
    obtain ⟨-, hcont⟩ := hdev.pwrite_chunk hx hi.serving hle hlen hk'
    exact ⟨rfl, i + 1, hi.step ht hm hexp.size_lt hx hne rfl hdata hin hout hcont⟩
  failed := by
    rintro x e w h p' r w₁ k w₂ hx ⟨rfl, i, hi⟩ - hp - hrecv - z hk hfail
    cases hexp.plugin.symm.trans hp
    have hthere := hi.byteread_le ht hx
    obtain ⟨-, hdata, rfl⟩ := wire_recv_eq hrecv hthere
    have hlen : r.data.length = (x.chunk s.ctx.minimumBlockSize).byteread.toNat := by
      rw [hdata, List.length_take, Nat.min_eq_left hthere]
    have hle := hm.chunk_le cfg hexp.size_lt i
    rw [← hi.length_content hm] at hle
    exact absurd (hdev.pwrite_chunk hx hi.serving hle hlen (wire_host_eq hk rfl rfl).1).1 hfail
  cut := by
    rintro x e w h r w₁ hx ⟨rfl, i, hi⟩ - hrecv hne
    exact absurd (wire_recv_eq hrecv (hi.byteread_le ht hx)).1 hne

end Loops

/-! ### A round -/

theorem envAt_wire_host : (envAt (wire host) c m.request).host =
    (host c.env.host (.note (.index .nbdCommands m.request.type.toNat))).2 := by
  rw [envAt, wire_host _ _ rfl rfl]
  rfl

variable (fuel) in
/-- A round does what the message asks: it answers as the disk does, and leaves the plugin
with the content the disk has. -/
theorem round_serves (hdev : IsBlockDevice host p c.mem.ctx.handle
      c.mem.ctx.minimumBlockSize content)
    (hexp : Exports cfg c.mem.ctx p (content c.env.host).length)
    (hc : c.x.Ok cfg c.mem.ctx.minimumBlockSize) (h0 : c.x.sendflag = 0)
    (hfuel : loopFuel cfg ≤ fuel) (hin : c.env.input = stream (m :: ms))
    (hm : m.Proper c.mem.ctx.minimumBlockSize (content c.env.host).length) :
    wp (wire host) (serveIn cfg fuel c.mem c.x)
      (fun o _ w' _ => ServedAsDisk content m ms c.env.output (content c.env.host) o w')
      c.mem c.env := by
  rw [stream_cons] at hin
  have hq := requestAt_wire host hc.request hin m.magic
  have hrest : (envAt (wire host) c m.request).input = m.payload ++ stream ms := by
    rw [envAt_wire_input (by simp [hin]), hin, List.drop_left' (by simp)]
  have hout : (envAt (wire host) c m.request).output = c.env.output := envAt_wire_output
  have hhost : content (envAt (wire host) c m.request).host = content c.env.host := by
    rw [envAt_wire_host, hdev.note]
  have hrange := hexp.inRange hm.stop
  have hacc : writeError c.mem.ctx m.request = NBD_SUCCESS :=
    writeError_eq_success.mpr ⟨hexp.writable, hrange⟩
  have hnone : m.request.type ≠ NBD_CMD_WRITE → m.payload = [] := fun ht => by
    rw [← List.length_eq_zero_iff, m.payload_length, dataLength_other ht]
  have H : RoundRules (wire host) cfg c.mem.ctx.minimumBlockSize c m.request
      (fun o _ w' _ => ServedAsDisk content m ms c.env.output (content c.env.host) o w')
      (fun x w _ => ∃ i, ReadAsDisk cfg c.mem.ctx.minimumBlockSize content m ms c.env.output
        (content c.env.host) x w i)
      (fun x e w _ => e = NBD_SUCCESS ∧ ∃ i, WriteAsDisk cfg c.mem.ctx.minimumBlockSize content m ms
        c.env.output (content c.env.host) x w i) :=
    { readLoop := readAsDisk_rules hdev hexp hm
      readRefused := fun _ hr => by rw [hrange] at hr; cases hr
      readAccepted := by
        rintro ht - - k w₁ hk
        obtain ⟨-, rfl⟩ := wire_send_eq hk
        refine ⟨0, accept_serving, ?_, ?_, hhost, fun h0 => ?_⟩
        · rw [hrest, hnone (by rw [ht]; decide)]
          rfl
        · rw [blocksBefore_zero, Nat.zero_mul, List.slice_zero_right, List.append_nil, hout]
        · exact absurd h0 (by rw [accept_sendflag]; decide)
      readZero := fun _ _ hz => absurd hz hexp.ne_zero
      writeLoop := writeAsDisk_rules hdev hexp hm
      writeRefused := fun _ hr => absurd hacc hr
      writeAccepted := by
        rintro - - -
        refine ⟨rfl, 0, accept_serving, ?_, hout, ?_, fun h0 => ?_⟩
        · rw [blocksBefore_zero, Nat.zero_mul]
          exact hrest
        · rw [blocksBefore_zero, Nat.zero_mul, List.take_zero, List.overwrite_nil]
          exact hhost
        · exact absurd h0 (by rw [accept_sendflag]; decide)
      writeZero := fun _ _ hz => absurd hz hexp.ne_zero
      disc := fun ht => by
        rcases hm.type with h | h | h <;> exact absurd (h.symm.trans ht) (by decide)
      flush := by
        rintro ht p' r w₁ k w₂ hp - hr hk
        cases hexp.plugin.symm.trans hp
        obtain ⟨hr', hw₁, ho₁⟩ := wire_host_eq hr rfl rfl
        obtain ⟨-, rfl⟩ := wire_send_eq hk
        obtain ⟨rfl, hcont⟩ := hdev.flush _ _ _ hr'
        have hnr : m.request.type ≠ NBD_CMD_READ := by rw [ht]; decide
        have hnw : m.request.type ≠ NBD_CMD_WRITE := by rw [ht]; decide
        refine ⟨⟨_, rfl⟩, ?_, ?_, ?_⟩
        · rw [hw₁, hrest, hnone hnw]
          rfl
        · rw [ho₁, hout, Msg.op, if_neg hnr, if_neg hnw]
          exact congrArg _ (List.append_nil _).symm
        · rw [hcont, hhost, Msg.op, if_neg hnr, if_neg hnw]
          rfl
      flushNull := fun _ hp => by
        have := hp p hexp.plugin
        rw [hexp.flush] at this
        cases this
      other := fun h₁ h₂ _ h₄ => absurd hm.type (by simp [h₁, h₂, h₄]) }
  exact H.round_total hq hexp.pos hexp.fits hfuel hc h0

/-! ### Every run -/

variable (cfg) (w) in
/-- The first head has the client's stream before it, and the content as it was. -/
theorem firstHead_serves (hdev : IsBlockDevice host p s.ctx.handle s.ctx.minimumBlockSize content) :
    (firstHead (wire host) cfg s w).env.input = w.input ∧
      (firstHead (wire host) cfg s w).env.output = w.output ∧
      content (firstHead (wire host) cfg s w).env.host = content w.host := by
  rw [firstHead, wire_host _ _ rfl rfl, wire_host _ _ rfl rfl]
  exact ⟨rfl, rfl, (hdev.uninit _ _).trans (hdev.uninit _ _)⟩

theorem Msg.Proper.length_apply {d : Bytes} {blocksize : UInt32}
    (hm : m.Proper blocksize d.length) : (m.op.apply d).length = d.length := by
  refine Disk.Op.length_apply ?_
  unfold Msg.op
  split_ifs with hr hw
  · exact hm.stop
  · change m.request.offset.toNat + m.payload.length ≤ d.length
    rw [m.payload_length, dataLength_write hw]
    exact hm.stop
  · trivial

/-- **`transmission_phase` refines the ideal disk.** Over the lossless transport and a plugin that
works, a stream of proper messages is answered as the ideal disk answers them, and leaves the
content it has; and the function returns when the stream ends. -/
theorem refines_disk (host : Env Call Resp β) (cfg : Config) (s : Shared) (w : Wire β) (p : Plugin)
    (content : β → Bytes) (ms : List Msg)
    (hdev : IsBlockDevice host p s.ctx.handle s.ctx.minimumBlockSize content)
    (hexp : Exports cfg s.ctx p (content w.host).length)
    (hm : ∀ m ∈ ms, m.Proper s.ctx.minimumBlockSize (content w.host).length)
    (hin : w.input = stream ms) :
    ∃ N, ∀ fuel ≥ N, let z := (transmissionPhase cfg fuel).run (wire host) s w
      z.out = .ret (-1) ∧ z.env.output = w.output ++ replies (content w.host) ms ∧
        content z.env.host = contentAfter (content w.host) ms := by
  refine ⟨loopFuel cfg + w.input.length + 1, fun fuel hfuel => ?_⟩
  obtain ⟨hin₀, hout₀, hcont₀⟩ := firstHead_serves cfg w hdev
  rw [run_transmissionPhase]
  -- at a head, the messages that are left are to be answered by the disk as it is now
  refine wp_loop_total (wire host)
    (Q := fun o _ w' _ => o = .ret (-1) ∧ w'.output = w.output ++ replies (content w.host) ms ∧
      content w'.host = contentAfter (content w.host) ms)
    (fun x s' w' _ => s' = s ∧ x.Ok cfg s.ctx.minimumBlockSize ∧ x.sendflag = 0 ∧
      (content w'.host).length = (content w.host).length ∧ ∃ rest,
      (∀ m ∈ rest, m.Proper s.ctx.minimumBlockSize (content w.host).length) ∧
        w'.input = stream rest ∧
      w.output ++ replies (content w.host) ms = w'.output ++ replies (content w'.host) rest ∧
      contentAfter (content w.host) ms = contentAfter (content w'.host) rest)
    (fun _ _ w' => w'.input.length) ?_ fuel _ _ _ [] (by rw [hin₀]; omega) ⟨rfl, firstHead_ok, rfl,
      by rw [hcont₀], ms, hm, hin₀.trans hin, by rw [hout₀, hcont₀], by rw [hcont₀]⟩
  rintro x s' w' h ⟨rfl, hx, h0, hlen, rest, hprop, hin', hrep, hafter⟩
  let c : ReqHead (Wire β) := ⟨x, s', w'⟩
  cases rest with
  | nil =>
    have hnone : requestAt (wire host) c = none :=
      requestAt_wire_none host (by simp [c, hin', stream])
    refine wp_round_none (c := c) hnone ⟨rfl, ?_, ?_⟩
    · rw [hrep, recvAt, wire_recv]
      exact (List.append_nil _).symm
    · rw [hafter, recvAt, wire_recv]
      rfl
  | cons m rest =>
    have hround := round_serves fuel (c := c) hdev (by rw [hlen]; exact hexp) hx h0 (by omega) hin'
      (by rw [hlen]; exact hprop m (.head _))
    have hframe := round_frame_wire fuel host (c := c) hx h0
    refine wp_mono _ ?_ (wp_and hround hframe)
    rintro o s'' w'' h' ⟨⟨⟨x', rfl⟩, hin'', hout'', hcont''⟩, hnext⟩
    obtain ⟨rfl, hx', h0'⟩ := hnext x' rfl
    have hop : (m.op.apply (content w'.host)).length = (content w'.host).length :=
      Msg.Proper.length_apply (by rw [hlen]; exact hprop m (.head _))
    refine ⟨⟨rfl, hx', h0', ?_, rest, fun m' hm' => hprop m' (.tail _ hm'), hin'', ?_, ?_⟩, ?_⟩
    · rw [hcont'', hop, hlen]
    · rw [hrep, hout'', hcont'', replies]
      simp only [List.append_assoc]
      rfl
    · rw [hafter, hcont'']
      rfl
    · rw [hin'', hin', stream_cons, List.length_append, List.length_append,
        NbdRequest.length_toBytes]
      omega

namespace Sample

/-- A disk of blocks of two bytes. -/
def disk : Env Call Resp Bytes
  | d, .pread _ _ count offset => (⟨0, d.slice (offset.toNat * 2) (count.toNat * 2)⟩, d)
  | d, .pwrite _ _ buf count offset =>
    ((0 : ℤ), d.overwrite (offset.toNat * 2) (buf.take (count.toNat * 2)))
  | d, e => ((quiet () e).1, d)

theorem disk_isBlockDevice : IsBlockDevice disk plugin Sample.ctx.handle 2 id where
  pread := by rintro b count offset r b' h -; cases h; exact ⟨rfl, rfl, rfl⟩
  pwrite := by rintro b buf count offset r b' h - -; cases h; exact ⟨rfl, rfl⟩
  flush := by rintro b r b' h; cases h; exact ⟨rfl, rfl⟩
  note _ _ := rfl
  uninit _ _ := rfl

/-- The content of the disk. -/
def initially : Bytes := [1, 2, 3, 4, 5, 6, 7, 8]

theorem twos_exports : Exports Sample.cfg twos.ctx plugin (id initially).length where
  pos := by decide
  fits := by decide
  plugin := rfl
  pwrite := rfl
  flush := rfl
  writable := by decide
  size := by decide

/-- A WRITE of two blocks, a READ of the disk and a FLUSH. -/
def session : List Msg := [zeroes 2 4, reading 0 8, flushing]

theorem session_proper :
    ∀ m ∈ session, m.Proper twos.ctx.minimumBlockSize (id initially).length := by
  intro m hm
  simp only [session, List.mem_cons, List.not_mem_nil, or_false] at hm
  rcases hm with rfl | rfl | rfl
  · exact ⟨.inr (.inl rfl), by decide, by decide, by decide⟩
  · exact ⟨.inl rfl, by decide, by decide, by decide⟩
  · exact ⟨.inr (.inr rfl), by decide, by decide, by decide⟩

/-- The READ after the WRITE finds its zeroes. -/
theorem refines_disk_session : ∃ N, ∀ fuel ≥ N,
    let z :=
      (transmissionPhase Sample.cfg fuel).run (wire disk) twos ⟨stream session, [], initially⟩
    z.out = .ret (-1) ∧ z.env.output = simpleReply NBD_SUCCESS 1 ++ (simpleReply NBD_SUCCESS 1 ++
      [1, 2, 0, 0, 0, 0, 7, 8] ++ simpleReply NBD_SUCCESS 1) ∧
      z.env.host = [1, 2, 0, 0, 0, 0, 7, 8] :=
  refines_disk disk Sample.cfg twos ⟨stream session, [], initially⟩ plugin
    id session disk_isBlockDevice twos_exports session_proper rfl

end Sample

end LwNBD
