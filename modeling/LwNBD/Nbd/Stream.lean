import LwNBD.Nbd.Requests
import LwNBD.Nbd.Sample

/-!
# The request stream

Whether the server keeps step with its client. A client's stream is a string of messages,
each a request and, for a WRITE, its data; the server knows where the next message begins
only by what it has received of the last. It receives the data of a WRITE as it writes
them, so what it does not try to write it does not receive: a WRITE that is refused, the
bytes after the last whole block, and what is left when a chunk is not written. These are
taken for the next request.

## What is proved

* `reading_consumed`, `writing_consumed` — what the chunks of a READ and a WRITE receive.
* `round_consumed` — what a round receives of the data of its request, and when it is all.
* `stream_in_sync` — while every WRITE is drained, each request that is read is the next
  one the client sent; and a round keeps step if and only if it drains its WRITE.
-/

namespace LwNBD

open Resumption

/-! ### Messages -/

/-- The data that follow a request: a WRITE's, and none of any other. -/
def NbdRequest.dataLength (q : NbdRequest) : ℕ :=
  if q.type = NBD_CMD_WRITE then q.count.toNat else 0

/-- A message of a client's: a request and its data. -/
structure Msg where
  /-- The request. -/
  request : NbdRequest
  /-- The data. -/
  payload : Bytes
  /-- It begins with the magic number. -/
  magic : request.magic = NBD_REQUEST_MAGIC
  /-- A WRITE has as many data as it says, and nothing else has any. -/
  payload_length : payload.length = request.dataLength

/-- A message as it is sent. -/
def Msg.bytes (m : Msg) : Bytes := m.request.toBytes ++ m.payload

/-- Messages as they are sent, one after the other. -/
def stream (ms : List Msg) : Bytes := ms.flatMap Msg.bytes

theorem stream_cons (m : Msg) (ms : List Msg) :
    stream (m :: ms) = m.request.toBytes ++ (m.payload ++ stream ms) := by
  rw [stream, List.flatMap_cons, Msg.bytes, List.append_assoc]
  rfl

/-! ### What is to be shown -/

/-- Every chunk that was not written was the last of its request. -/
def FailsLast (ctx : ContextNbd) (q : NbdRequest) (h : List Ev) : Prop :=
  ∀ p handle buf count offset (r : ℤ), (⟨.pwrite p handle buf count offset, r⟩ : Ev) ∈ h → r ≠ 0 →
    offset + count.toUInt64 = q.offset / ctx.minimumBlockSize.toUInt64 +
    (q.count / ctx.minimumBlockSize).toUInt64

/-- A request is drained in a round with calls `h`: it is no WRITE, or an empty one, or one of
whole blocks that is accepted, of which the plugin fails to write the last chunk at most. -/
def Drained (ctx : ContextNbd) (q : NbdRequest) (h : List Ev) : Prop :=
  q.type = NBD_CMD_WRITE → q.count ≠ 0 →
    writeError ctx q = NBD_SUCCESS ∧ ctx.minimumBlockSize.toNat ∣ q.count.toNat ∧ FailsLast ctx q h

variable {β : Type} {host : Env Call Resp β} {cfg : Config} {fuel : ℕ} {s : Shared} {w : Wire β}
variable {c : ReqHead (Wire β)} {q : NbdRequest} {input : Bytes}

/-! ### A round -/

/-- No chunk failed. -/
def AllWritten (h : List Ev) : Prop :=
  ∀ p handle buf count offset (r : ℤ), (⟨.pwrite p handle buf count offset, r⟩ : Ev) ∈ h → r = 0

theorem AllWritten.failsLast {ctx : ContextNbd} {h : List Ev} (ha : AllWritten h) :
    FailsLast ctx q h :=
  fun p handle buf n o r hmem hne => absurd (ha p handle buf n o r hmem) hne

/-- A chunk that fails is the last if and only if no blocks are left after it. -/
theorem ends_iff {blocksize : UInt32} {x : Vars} {i : ℕ} (hx : x.Serving cfg blocksize q i) :
    x.offset + (x.chunk blocksize).bufblksz.toUInt64 =
        q.offset / blocksize.toUInt64 + (q.count / blocksize).toUInt64 ↔
      q.blocksBefore cfg blocksize (i + 1) = q.blocks blocksize := by
  have hb : q.blocks blocksize < 2 ^ 32 := Nat.lt_of_le_of_lt (Nat.div_le_self _ _) q.count.toNat_lt
  have hle : q.blocksBefore cfg blocksize (i + 1) ≤ q.blocks blocksize := Nat.min_le_right _ _
  rw [← UInt64.toNat_inj, UInt64.toNat_add, UInt64.toNat_add, UInt32.toNat_toUInt64,
    hx.blocks, hx.offset, NbdRequest.offsetOf, Nat.mod_add_mod, Nat.add_assoc, ← blocksBefore_succ]
  have hdiv : (q.offset / blocksize.toUInt64).toNat = q.offset.toNat / blocksize.toNat := by simp
  have hcount : (q.count / blocksize).toUInt64.toNat = q.blocks blocksize := by
    simp [NbdRequest.blocks]
  rw [hdiv, hcount]
  omega

theorem AllWritten.concat_write {h : List Ev} (ha : AllWritten h) {sock : ℤ}
    {len : ℕ} {r : Recvd len} {p : Plugin} {handle : Handle} {buf : Bytes}
    {count : UInt32} {offset : UInt64} :
    AllWritten (h ++ [⟨.recv sock .nbdBuffer len, r⟩,
      ⟨.pwrite p handle buf count offset, (0 : ℤ)⟩]) := by
  intro p' handle' buf' count' offset' r' hmem
  rcases List.mem_append.mp hmem with hmem | hmem
  · exact ha _ _ _ _ _ _ hmem
  · simp only [List.mem_cons, Sigma.mk.injEq, reduceCtorEq, false_and, false_or, List.not_mem_nil,
      or_false, Call.pwrite.injEq] at hmem
    obtain ⟨⟨rfl, rfl, rfl, rfl, rfl⟩, hr⟩ := hmem
    exact eq_of_heq hr

/-- When a chunk fails after others were written, it was the last if and only if it ends where
the request does. -/
theorem failsLast_concat {ctx : ContextNbd} {h : List Ev} (ha : AllWritten h) {sock : ℤ} {len : ℕ}
    {r : Recvd len} {p : Plugin} {handle : Handle} {buf : Bytes} {count : UInt32}
    {offset : UInt64} {k : ℤ} (hk : k ≠ 0) :
    FailsLast ctx q (h ++ [⟨.recv sock .nbdBuffer len, r⟩,
      ⟨.pwrite p handle buf count offset, k⟩]) ↔ offset + count.toUInt64 =
        q.offset / ctx.minimumBlockSize.toUInt64 + (q.count / ctx.minimumBlockSize).toUInt64 := by
  constructor
  · intro hf
    exact hf p handle buf count offset k (List.mem_append_right _ (.tail _ (.head _))) hk
  · intro he p' handle' buf' count' offset' r' hmem hne
    rcases List.mem_append.mp hmem with hmem | hmem
    · exact absurd (ha _ _ _ _ _ _ hmem) hne
    · simp only [List.mem_cons, Sigma.mk.injEq, reduceCtorEq, false_and, false_or, List.not_mem_nil,
        or_false, Call.pwrite.injEq] at hmem
      obtain ⟨⟨rfl, rfl, rfl, rfl, rfl⟩, -⟩ := hmem
      exact he

theorem failsLast_concat_send {ctx : ContextNbd} {h : List Ev} {sock : ℤ} {obj : Obj}
    {buf : Bytes} {flags : ℤ} {k : Sent buf.length} :
    FailsLast ctx q (h ++ [⟨.send sock obj buf flags, k⟩]) ↔ FailsLast ctx q h := by
  simp [FailsLast]

theorem dataLength_write (ht : q.type = NBD_CMD_WRITE) : q.dataLength = q.count.toNat := if_pos ht

theorem dataLength_other (ht : q.type ≠ NBD_CMD_WRITE) : q.dataLength = 0 := if_neg ht

theorem drained_other {ctx : ContextNbd} {h : List Ev} (ht : q.type ≠ NBD_CMD_WRITE) :
    Drained ctx q h :=
  fun ht' => absurd ht' ht

/-- What a round receives of its request's data, when it goes on: all of them if and only if
it drains them. -/
def Consumed (ctx : ContextNbd) (q : NbdRequest) (input : Bytes)
    (o : Outcome (Ctl Vars ℤ)) (w : Wire β) (h : List Ev) : Prop :=
  ∀ x, o = .ret (.next x) →
    ∃ n ≤ q.dataLength, w.input = input.drop n ∧ (n = q.dataLength ↔ Drained ctx q h)

theorem consumed_other {ctx : ContextNbd} {o : Outcome (Ctl Vars ℤ)} {h : List Ev}
    (ht : q.type ≠ NBD_CMD_WRITE) (hw : w.input = input) : Consumed ctx q input o w h :=
  fun _ _ => ⟨0, Nat.zero_le _, hw, by simp [dataLength_other ht, drained_other ht]⟩

/-- What holds in the loop of a WRITE that was accepted, after `i` chunks. -/
structure Receiving (cfg : Config) (ctx : ContextNbd) (q : NbdRequest) (input : Bytes)
    (x : Vars) (w : Wire β) (h : List Ev) (i : ℕ) : Prop where
  /-- So many chunks were served. -/
  serving : x.Serving cfg ctx.minimumBlockSize q i
  /-- Their data were received. -/
  input : w.input = input.drop (q.blocksBefore cfg ctx.minimumBlockSize i *
    ctx.minimumBlockSize.toNat)
  /-- They were written, while there are more. -/
  written : x.sendflag ≠ 0 → AllWritten h
  /-- When there are no more, they were all the chunks if and only if only the last failed. -/
  last : x.sendflag = 0 →
    (q.blocksBefore cfg ctx.minimumBlockSize i = q.blocks ctx.minimumBlockSize ↔ FailsLast ctx q h)

namespace Receiving

variable {x : Vars} {h : List Ev} {i : ℕ}

/-- Over this transport a chunk is received whole. -/
theorem byteread_le (hx : x.Ok cfg s.ctx.minimumBlockSize)
    (hi : Receiving cfg s.ctx q input x w h i) (hlen : q.count.toNat ≤ input.length) :
    (x.chunk s.ctx.minimumBlockSize).byteread.toNat ≤ w.input.length := by
  have hb := blocksBefore_mul_le cfg s.ctx.minimumBlockSize q (i + 1)
  rw [blocksBefore_succ, Nat.add_mul] at hb
  rw [hx.chunk.bytes, hi.serving.blocks, hi.input, List.length_drop]
  omega

/-- After it, the data of one more chunk were received. -/
theorem drop_byteread (hx : x.Ok cfg s.ctx.minimumBlockSize)
    (hi : Receiving cfg s.ctx q input x w h i) :
    w.input.drop (x.chunk s.ctx.minimumBlockSize).byteread.toNat =
      input.drop (q.blocksBefore cfg s.ctx.minimumBlockSize (i + 1) *
      s.ctx.minimumBlockSize.toNat) := by
  rw [hx.chunk.bytes, hi.serving.blocks, hi.input, List.drop_drop, blocksBefore_succ, Nat.add_mul]

/-- Only a WRITE of whole blocks has all its data in its blocks. -/
theorem blocksBefore_eq (hne : q.count ≠ 0)
    (hn : q.blocksBefore cfg s.ctx.minimumBlockSize i *
      s.ctx.minimumBlockSize.toNat = q.count.toNat) :
    q.blocksBefore cfg s.ctx.minimumBlockSize i = q.blocks s.ctx.minimumBlockSize := by
  have hpos : 0 < q.count.toNat := Nat.pos_of_ne_zero fun hz => hne (UInt32.toNat_inj.mp hz)
  have hb : 0 < s.ctx.minimumBlockSize.toNat := Nat.pos_of_ne_zero fun hz => by
    rw [hz, Nat.mul_zero] at hn
    omega
  refine Nat.le_antisymm (Nat.min_le_right _ _) (Nat.le_of_mul_le_mul_right ?_ hb)
  rw [hn]
  exact Nat.div_mul_le_self _ _

/-- When the loop is left, all the data were received if and only if the request is drained. -/
theorem drained_iff (hr : writeError s.ctx q = NBD_SUCCESS) (ht : q.type = NBD_CMD_WRITE)
    (hi : Receiving cfg s.ctx q input x w h i) (h0 : x.sendflag = 0) :
    q.blocksBefore cfg s.ctx.minimumBlockSize i * s.ctx.minimumBlockSize.toNat = q.count.toNat ↔
      Drained s.ctx q h := by
  constructor
  · intro hn _ hne
    have heq := blocksBefore_eq hne hn
    refine ⟨hr, ⟨q.blocks s.ctx.minimumBlockSize, ?_⟩, (hi.last h0).mp heq⟩
    rw [Nat.mul_comm, ← heq, hn]
  · intro hd
    by_cases hz : q.count = 0
    · have hb := blocksBefore_mul_le cfg s.ctx.minimumBlockSize q i
      rw [hz] at hb ⊢
      exact Nat.le_antisymm hb (Nat.zero_le _)
    · obtain ⟨-, hdvd, hf⟩ := hd ht hz
      rw [(hi.last h0).mpr hf]
      exact Nat.div_mul_cancel hdvd

end Receiving

/-- A WRITE that is refused is drained if and only if it is empty. -/
theorem drained_refused_iff (hr : writeError s.ctx q ≠ NBD_SUCCESS) (ht : q.type = NBD_CMD_WRITE)
    {h : List Ev} : 0 = q.count.toNat ↔ Drained s.ctx q h := by
  constructor
  · exact fun hz _ hne => absurd (UInt32.toNat_inj.mp hz.symm) hne
  · intro hd
    by_contra hne
    exact hr (hd ht fun hz => hne (by rw [hz]; rfl)).1

theorem drained_concat_send {ctx : ContextNbd} {h : List Ev} {sock : ℤ} {obj : Obj}
    {buf : Bytes} {flags : ℤ} {k : Sent buf.length} :
    Drained ctx q (h ++ [⟨.send sock obj buf flags, k⟩]) ↔ Drained ctx q h := by
  simp only [Drained, failsLast_concat_send]

theorem reading_consumed (ht : q.type = NBD_CMD_READ) :
    ReadRules (wire host) s cfg s.ctx.minimumBlockSize (fun o _ w h => Consumed s.ctx q input o w h)
      (fun _ w _ => w.input = input) :=
  have ht' : q.type ≠ NBD_CMD_WRITE := by rw [ht]; decide
  { leave := fun _ hJ _ => consumed_other ht' hJ
    null := by simp [Consumed]
    sent := by
      rintro x w h p r w₁ k w₂ - hJ - - hr - z hk -
      rw [(wire_send_eq hk).2]
      exact (wire_host_eq hr rfl rfl).2.1.trans hJ
    cut := by
      rintro x w h p r w₁ k w₂ - hJ - - hr - z hk - -
      refine consumed_other ht' ?_
      rw [(wire_send_eq hk).2]
      exact (wire_host_eq hr rfl rfl).2.1.trans hJ
    again := by
      rintro x w h p r w₁ - hJ - - hr - -
      exact (wire_host_eq hr rfl rfl).2.1.trans hJ
    fail := by simp [Consumed] }

/-- What holds in the loop of a WRITE: it was refused, or so many chunks were received. -/
def Consuming (cfg : Config) (ctx : ContextNbd) (q : NbdRequest) (input : Bytes)
    (x : Vars) (w : Wire β) (h : List Ev) : Prop :=
  (writeError ctx q ≠ NBD_SUCCESS ∧ x.sendflag = 0 ∧ w.input = input) ∨
    (writeError ctx q = NBD_SUCCESS ∧ ∃ i, Receiving cfg ctx q input x w h i)

/-- The chunks of a WRITE receive their data, and are all there is if only the last fails. -/
theorem writing_consumed (hlen : q.dataLength ≤ input.length) (ht : q.type = NBD_CMD_WRITE) :
    WriteRules (wire host) s cfg s.ctx.minimumBlockSize
      (Post.thenReply (wire host) q.handle fun o _ w h => Consumed s.ctx q input o w h)
      (fun x _ w h => Consuming cfg s.ctx q input x w h) := by
  rw [dataLength_write ht] at hlen
  exact
    { leave := by
        rintro x e w h - hJ h0 k w₁ hk x' ⟨⟩
        rw [(wire_send_eq hk).2, dataLength_write ht]
        rcases hJ with ⟨hr, -, hw⟩ | ⟨hr, i, hi⟩
        · exact ⟨0, Nat.zero_le _, hw, drained_refused_iff hr ht⟩
        · exact ⟨_, blocksBefore_mul_le cfg _ q i, hi.input,
            (hi.drained_iff hr ht h0).trans drained_concat_send.symm⟩
      null := by simp [Post.thenReply, Consumed]
      written := by
        rintro x e w h p r w₁ k w₂ hx hJ hne - - hrecv - z hk rfl
        rcases hJ with ⟨-, h0, -⟩ | ⟨hr, i, hi⟩
        · exact absurd h0 hne
        obtain ⟨-, -, rfl⟩ := wire_recv_eq hrecv (hi.byteread_le hx hlen)
        have hall := hi.written hne
        refine .inr ⟨hr, i + 1, hi.serving.advance, ?_, fun _ => hall.concat_write, fun h0 => ?_⟩
        · exact (wire_host_eq hk rfl rfl).2.1.trans (hi.drop_byteread hx)
        · exact iff_of_true (blocksBefore_of_le (hi.serving.blocks_le hne h0))
            hall.concat_write.failsLast
      failed := by
        rintro x e w h p r w₁ k w₂ hx hJ hne - - hrecv - z hk hfail
        rcases hJ with ⟨-, h0, -⟩ | ⟨hr, i, hi⟩
        · exact absurd h0 hne
        obtain ⟨-, -, rfl⟩ := wire_recv_eq hrecv (hi.byteread_le hx hlen)
        refine .inr ⟨hr, i + 1, (hi.serving.advance (d := r.data)).congr rfl rfl rfl, ?_,
          fun h0 => absurd rfl h0, fun _ => ?_⟩
        · exact (wire_host_eq hk rfl rfl).2.1.trans (hi.drop_byteread hx)
        · rw [failsLast_concat (hi.written hne) hfail, fill_offset, fill_bufblksz, chunk_offset]
          exact (ends_iff hi.serving).symm
      cut := by
        intro x e w h r w₁ hx hJ hne hrecv hret
        rcases hJ with ⟨-, h0, -⟩ | ⟨hr, i, hi⟩
        · exact absurd h0 hne
        · exact absurd (wire_recv_eq hrecv (hi.byteread_le hx hlen)).1 hret }

variable (fuel) in
/-- What a round receives of its request's data: all of them if and only if it drains them. -/
theorem round_consumed (hc : c.x.Ok cfg c.mem.ctx.minimumBlockSize) (h0 : c.x.sendflag = 0)
    (hq : requestAt (wire host) c = some q) (hin : (envAt (wire host) c q).input = input)
    (hlen : q.dataLength ≤ input.length) :
    wp (wire host) (serveIn cfg fuel c.mem c.x) (fun o _ w' h => Consumed c.mem.ctx q input o w' h)
      c.mem c.env := by
  have hall : AllWritten (headerAt (wire host) c q) := by
    intro p handle buf count offset r; simp [headerAt]
  have H : RoundRules (wire host) cfg c.mem.ctx.minimumBlockSize c q
      (fun o _ w' h => Consumed c.mem.ctx q input o w' h) (fun _ w _ => w.input = input)
      (fun x _ w h => Consuming cfg c.mem.ctx q input x w h) :=
    { readLoop := reading_consumed
      readRefused := by
        rintro - - k w₁ hk
        rw [(wire_send_eq hk).2]
        exact hin
      readAccepted := by
        rintro - - - k w₁ hk
        rw [(wire_send_eq hk).2]
        exact hin
      readZero := by simp [Consumed]
      writeLoop := writing_consumed hlen
      writeRefused := fun _ hr => .inl ⟨hr, h0, hin⟩
      writeAccepted :=
        fun _ hr _ =>
        .inr ⟨hr, 0, accept_serving, by rw [blocksBefore_zero, Nat.zero_mul]; exact hin,
                                          fun _ => hall, fun h0 =>
                                          absurd h0 (by rw [accept_sendflag]; decide)⟩
      writeZero := by simp [Consumed]
      disc := by simp [Consumed]
      flush := by
        rintro ht p r w₁ k w₂ - - hr hk
        refine consumed_other (by rw [ht]; decide) ?_
        rw [(wire_send_eq hk).2]
        exact (wire_host_eq hr rfl rfl).2.1.trans hin
      flushNull := by simp [Consumed]
      other := by
        rintro - ht - - k w₁ hk
        refine consumed_other ht ?_
        rw [(wire_send_eq hk).2]
        exact hin }
  exact H.round hq (by simp [Consumed]) (by simp [Consumed]) hc

/-! ### Every run -/

/-- A list that is dropped from to the same rest was dropped from the same. -/
theorem drop_append_eq_iff {l r : Bytes} {n : ℕ} (hn : n ≤ l.length) :
    (l ++ r).drop n = r ↔ n = l.length := by
  constructor
  · intro h
    have hlen := congrArg List.length h
    rw [List.length_drop, List.length_append] at hlen
    omega
  · rintro rfl
    exact List.drop_left

variable (fuel) in
/-- At the head where message `m` is next, its request is read; and the round keeps step if and
only if it drains it. -/
theorem round_in_step {m : Msg} {ms : List Msg} (hc : c.x.Ok cfg c.mem.ctx.minimumBlockSize)
    (h0 : c.x.sendflag = 0) (hin : c.env.input = stream (m :: ms)) :
    requestAt (wire host) c = some m.request ∧
      ∀ c', Round (wire host) (serveIn cfg fuel c.mem) c c' →
        (c'.env.input = stream ms ↔
        Drained c.mem.ctx m.request (roundAt (wire host) cfg fuel c).trace) := by
  rw [stream_cons] at hin
  have hq := requestAt_wire host hc.request hin m.magic
  have hrest : (envAt (wire host) c m.request).input = m.payload ++ stream ms := by
    rw [envAt_wire_input (by simp [hin]), hin, List.drop_left' (by simp)]
  refine ⟨hq, fun c' hr => ?_⟩
  obtain ⟨ho, -, henv⟩ := hr
  have hround :=
    round_consumed fuel hc h0 hq hrest (by rw [List.length_append, m.payload_length]; omega)
  obtain ⟨n, hn, hdrop, hiff⟩ := hround c'.x ho
  rw [← henv, show (c.round (wire host) (serveIn cfg fuel c.mem)).env.input = _ from hdrop,
    drop_append_eq_iff (by rw [m.payload_length]; exact hn), m.payload_length]
  exact hiff

/-- **The request stream stays in step.** In a run over the lossless transport, from messages `ms`
and with whatever plugin, in which every request was drained: the requests that were served are
the first of `ms`, the next request that is read is the next of them, and the round that reads
it leaves the rest if and only if it drains it. -/
theorem stream_in_sync (host : Env Call Resp β) (cfg : Config) (fuel : ℕ) (s : Shared) (w : Wire β)
    (ms : List Msg) (hin : w.input = stream ms) (qs : List NbdRequest) (c : ReqHead (Wire β))
    (h : Served (wire host) cfg fuel (fun c => ∀ q, requestAt (wire host) c = some q →
      Drained c.mem.ctx q (roundAt (wire host) cfg fuel c).trace) s w qs c) :
    ∃ rest, ms.map Msg.request = qs ++ rest.map Msg.request ∧ c.env.input = stream rest ∧
      requestAt (wire host) c = rest.head?.map Msg.request ∧
      ∀ m rest' c', rest = m :: rest' → Round (wire host) (serveIn cfg fuel s) c c' →
        (c'.env.input = stream rest' ↔
        Drained s.ctx m.request (roundAt (wire host) cfg fuel c).trace) := by
  have hkey : ∃ rest, ms.map Msg.request = qs ++ rest.map Msg.request ∧
      c.env.input = stream rest := by
    induction h with
    | first => exact ⟨ms, rfl, hin⟩
    | @round qs q c c' h hok hq hr ih =>
      obtain ⟨rest, hmap, hrest⟩ := ih
      obtain ⟨rfl, hx⟩ := h.atRequest.frame
      have h0 := h.atRequest.sendflag_wire
      cases rest with
      | nil =>
        have hnone := requestAt_wire_none host (c := c) (by simp [hrest, stream])
        rw [hnone] at hq
        cases hq
      | cons m rest =>
        obtain ⟨hq', hstep⟩ := round_in_step fuel hx h0 hrest
        rw [hq'] at hq
        cases hq
        exact ⟨rest, by rw [hmap, List.map_cons, List.append_assoc]; rfl,
                          (hstep c' hr).mpr (hok _ hq')⟩
  obtain ⟨rest, hmap, hrest⟩ := hkey
  obtain ⟨rfl, hx⟩ := h.atRequest.frame
  have h0 := h.atRequest.sendflag_wire
  refine ⟨rest, hmap, hrest, ?_, ?_⟩
  · cases rest with
    | nil => exact requestAt_wire_none host (by simp [hrest, stream])
    | cons m rest => exact (round_in_step fuel hx h0 hrest).1
  · rintro m rest' c' rfl hr
    exact (round_in_step fuel hx h0 hrest).2 c' hr

namespace Sample

/-- A WRITE of zeroes. -/
def zeroes (offset : UInt64) (count : UInt32) : Msg where
  request := ask NBD_CMD_WRITE offset count
  payload := List.replicate count.toNat 0
  magic := rfl
  payload_length := List.length_replicate

/-- A FLUSH. -/
def flushing : Msg := ⟨ask NBD_CMD_FLUSH 0 0, [], rfl, rfl⟩

/-- A READ. -/
def reading (offset : UInt64) (count : UInt32) : Msg :=
  ⟨ask NBD_CMD_READ offset count, [], rfl, rfl⟩

/-- A client that sends these messages. -/
def sender (ms : List Msg) : Wire Unit := client (stream ms)

/-- A chunk that failed. -/
def isFailed : Ev → Bool
  | ⟨.pwrite .., r⟩ => (r : ℤ) ≠ 0
  | _ => false

theorem allWritten_of {h : List Ev} (hall : h.all fun e => !isFailed e) : AllWritten h := by
  intro p handle buf count offset r hmem
  have hr := List.all_eq_true.mp hall _ hmem
  simpa [isFailed] using hr

/-- The head of the request loop after a WRITE of two chunks was served. -/
def written : ReqHead (Wire Unit) :=
  (servedAfter (wire quiet) Sample.cfg 8 mem (sender [zeroes 2 3, flushing]) 1).2

/-- After the WRITE the FLUSH is read, and the round that serves it keeps step if it drains it. -/
theorem stream_in_sync_written : ∃ m : Msg, m.request = flushing.request ∧
    requestAt (wire quiet) written = some m.request ∧
    ∀ c', Round (wire quiet) (serveIn Sample.cfg 8 mem) written c' →
      (c'.env.input = [] ↔ Drained mem.ctx m.request
      (roundAt (wire quiet) Sample.cfg 8 written).trace) := by
  have hserved : (servedAfter (wire quiet) Sample.cfg 8 mem (sender [zeroes 2 3, flushing]) 1).1 =
      [ask NBD_CMD_WRITE 2 3] := by decide +kernel
  have hfirst :
      requestAt (wire quiet) (firstHead (wire quiet) Sample.cfg mem
      (sender [zeroes 2 3, flushing])) =
      some (ask NBD_CMD_WRITE 2 3) := by decide +kernel
  have hwritten : AllWritten (roundAt (wire quiet) Sample.cfg 8
      (firstHead (wire quiet) Sample.cfg mem (sender [zeroes 2 3, flushing]))).trace :=
    allWritten_of (by decide +kernel)
  have hdrained : ∀ k < 1, ∀ q,
      requestAt (wire quiet) (servedAfter (wire quiet) Sample.cfg 8 mem
      (sender [zeroes 2 3, flushing]) k).2 = some q →
      Drained (servedAfter (wire quiet) Sample.cfg 8 mem (sender [zeroes 2 3, flushing])
        k).2.mem.ctx q (roundAt (wire quiet) Sample.cfg 8
          (servedAfter (wire quiet) Sample.cfg 8 mem (sender [zeroes 2 3, flushing])
          k).2).trace := by
    intro k hk q hq
    obtain rfl := Nat.lt_one_iff.mp hk
    obtain rfl := Option.some.inj (hfirst.symm.trans hq)
    exact fun _ _ => ⟨by decide +kernel, by decide +kernel, hwritten.failsLast⟩
  obtain ⟨rest, hmap, -, hq, hiff⟩ :=
    stream_in_sync quiet Sample.cfg 8 mem (sender [zeroes 2 3, flushing]) [zeroes 2 3, flushing]
    rfl _ _ (served_after_of 1 hdrained)
  rw [hserved] at hmap
  obtain ⟨m, rfl, hm⟩ : ∃ m, rest = [m] ∧ m.request = flushing.request := by
    rcases rest with _ | ⟨m, _ | ⟨m', rest⟩⟩
    · cases hmap
    · exact ⟨m, rfl, (List.cons.inj (List.cons.inj hmap).2).1.symm⟩
    · simp at hmap
  exact ⟨m, hm, hq, fun c' hc' => hiff m [] c' rfl hc'⟩

/-- **A WRITE that is refused is followed by its data**, which are read for the next request. -/
theorem stream_out_of_sync :
    ¬ ∀ (β : Type) (host : Env Call Resp β) (cfg : Config) (fuel : ℕ) (s : Shared) (w : Wire β),
      1 ≤ s.ctx.minimumBlockSize.toNat → s.ctx.minimumBlockSize.toNat ≤ cfg.bufferLen →
      ∀ (ms : List Msg) (qs : List NbdRequest) (c : ReqHead (Wire β)), w.input = stream ms →
      Served (wire host) cfg fuel (fun _ => True) s w qs c →
      ∃ rest : List Msg, ms.map Msg.request = qs ++ rest.map Msg.request ∧
        requestAt (wire host) c = rest.head?.map Msg.request := by
  intro h
  have hserved : (servedAfter (wire quiet) Sample.cfg 8 mem (sender [zeroes 9 3, flushing]) 1).1 =
      [ask NBD_CMD_WRITE 9 3] := by decide +kernel
  have hnone : requestAt (wire quiet)
      (servedAfter (wire quiet) Sample.cfg 8 mem (sender [zeroes 9 3, flushing]) 1).2 = none := by
    decide +kernel
  obtain ⟨rest, hmap, hq⟩ :=
    h _ quiet Sample.cfg 8 mem (sender [zeroes 9 3, flushing]) (by decide) (by decide) [zeroes 9 3,
    flushing] _ _ rfl (served_after 1)
  rw [hserved] at hmap
  rw [hnone] at hq
  cases rest with
  | nil => cases hmap
  | cons m rest => cases hq

end Sample

end LwNBD
