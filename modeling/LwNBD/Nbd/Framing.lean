import LwNBD.Nbd.Requests
import LwNBD.Nbd.Sample

/-!
# Reply framing

What a client finds in the server's output, over a lossless transport: for each request a
reply of sixteen bytes, and after the reply to a READ that succeeded the data, as many as
were asked for. The client knows where the next reply begins only by that. The server sends
whole blocks: a READ that is not of whole blocks is answered with success and has fewer
data, and what comes next is out of step.

## What is proved

* `round_framed` — what a round sends, and when it is the frame of its request.
* `replies_framed` — a run ends when the client's stream does; and if every request in it
  can be served in whole blocks, its output is the frames of the requests, in order.
-/

namespace LwNBD

open Resumption

/-! ### What is to be shown -/

/-- The requests that were read. -/
def requestsRead (h : List Ev) : List NbdRequest := h.filterMap fun
  | ⟨.recv _ .request _, r⟩ =>
    if asSize r.ret < 28 ∨ (NbdRequest.ofBytes r.data).magic ≠ NBD_REQUEST_MAGIC then none
    else some (.ofBytes r.data)
  | _ => none

@[simp] theorem requestsRead_append (h h' : List Ev) :
    requestsRead (h ++ h') = requestsRead h ++ requestsRead h' := List.filterMap_append

/-- The frame of a request: no byte for a DISC, and for any other a reply, with the data of a
READ that succeeded after it. -/
def Frame (q : NbdRequest) (out : Bytes) : Prop :=
  if q.type = NBD_CMD_DISC then out = []
  else ∃ error data, out = simpleReply error q.handle ++ data ∧
    data.length = if q.type = NBD_CMD_READ ∧ error = NBD_SUCCESS then q.count.toNat else 0

/-- The frame of a READ, cut short. -/
def CutFrame (q : NbdRequest) (out : Bytes) : Prop :=
  q.type = NBD_CMD_READ ∧ ∃ data, out = simpleReply NBD_SUCCESS q.handle ++ data ∧
    data.length ≤ q.count.toNat

/-- The frames of requests, one after the other. -/
inductive Frames : List NbdRequest → Bytes → Prop where
  /-- No request, no frame. -/
  | nil : Frames [] []
  /-- One more frame. -/
  | snoc {qs : List NbdRequest} {out : Bytes} {q : NbdRequest} {b : Bytes} : Frames qs out →
      Frame q b →
    Frames (qs ++ [q]) (out ++ b)

/-- The last call was to read a block, and it failed. -/
def ReadFailed (h : List Ev) : Prop :=
  ∃ p handle count offset, ∃ r : Pread, h.getLast? = some ⟨.pread p handle count offset, r⟩ ∧
    r.ret ≠ 0

/-- The output of a run is framed: it is the frames of the requests, but that the last may be
that of a READ, cut short, if the run returned `-1` when it failed to read a block. -/
def Framed (o : Outcome ℤ) (h : List Ev) (out : Bytes) : Prop :=
  (∃ r, o = .ret r) ∧ (Frames (requestsRead h) out ∨ o = .ret (-1) ∧ ReadFailed h ∧
    ∃ qs q out' b, requestsRead h = qs ++ [q] ∧ out = out' ++ b ∧ Frames qs out' ∧ CutFrame q b)

/-- A READ, if it is accepted, is of whole blocks. -/
def WholeBlocks (ctx : ContextNbd) (q : NbdRequest) : Prop :=
  q.type = NBD_CMD_READ → outOfRange ctx.exportsize q = false →
    ctx.minimumBlockSize.toNat ∣ q.count.toNat

/-- The export has the callbacks that the request is served by. -/
structure HasCallbacks (ctx : ContextNbd) (q : NbdRequest) : Prop where
  /-- For a READ that is accepted, there is a plugin. -/
  read : q.type = NBD_CMD_READ → outOfRange ctx.exportsize q = false → ctx.p ≠ none
  /-- For a WRITE that is accepted, `pwrite`. -/
  write : q.type = NBD_CMD_WRITE → writeError ctx q = NBD_SUCCESS → Writable ctx
  /-- For a FLUSH, `flush`. -/
  flush : q.type = NBD_CMD_FLUSH → ∃ p, ctx.p = some p ∧ p.flush = true

/-! ### Frames -/

theorem frame_reply {q : NbdRequest} {error : UInt32} (ht : q.type ≠ NBD_CMD_DISC)
    (he : q.type = NBD_CMD_READ → error ≠ NBD_SUCCESS) : Frame q (simpleReply error q.handle) := by
  rw [Frame, if_neg ht]
  exact ⟨error, [], by simp, (if_neg fun h => he h.1 h.2).symm⟩

/-- A READ's reply and data are its frame if and only if the data are what was asked for. -/
theorem frame_read_iff {q : NbdRequest} {data : Bytes} (ht : q.type = NBD_CMD_READ) :
    Frame q (simpleReply NBD_SUCCESS q.handle ++ data) ↔ data.length = q.count.toNat := by
  rw [Frame, if_neg (by rw [ht]; decide)]
  constructor
  · rintro ⟨error, data', heq, hlen⟩
    obtain ⟨hreply, rfl⟩ := List.append_inj heq (by simp)
    obtain ⟨rfl, -⟩ := simpleReply_inj hreply
    rw [hlen, if_pos ⟨ht, rfl⟩]
  · intro hlen
    exact ⟨NBD_SUCCESS, data, rfl, by rw [hlen, if_pos ⟨ht, rfl⟩]⟩

theorem Frames.singleton {q : NbdRequest} {out : Bytes} (h : Frames [q] out) : Frame q out := by
  generalize hqs : [q] = qs at h
  cases h with
  | nil => cases hqs
  | @snoc qs out q' b hf hb =>
    obtain ⟨rfl, h'⟩ := List.append_eq_singleton_iff.mp hqs.symm |>.resolve_right (by simp)
    cases h'
    generalize hqs : [] = qs at hf
    cases hf with
    | nil => exact hb
    | snoc => exact absurd hqs.symm (by simp)

theorem ReadFailed.append_left {h h' : List Ev} (hf : ReadFailed h') : ReadFailed (h ++ h') := by
  obtain ⟨p, handle, n, o, r, hlast, hr⟩ := hf
  exact ⟨p, handle, n, o, r, by rw [List.getLast?_append, hlast]; rfl, hr⟩

/-- What came before, and read no request, does not matter. -/
theorem Framed.append_left {h h' : List Ev} {o : Outcome ℤ} {out : Bytes} (hr : requestsRead h = [])
    (hf : Framed o h' out) : Framed o (h ++ h') out := by
  obtain ⟨hret, hf⟩ := hf
  rw [Framed, requestsRead_append, hr, List.nil_append]
  exact ⟨hret, hf.imp id fun ⟨ho, hfail, hq⟩ => ⟨ho, hfail.append_left, hq⟩⟩

/-! ### A round -/

variable {β : Type} {host : Env Call Resp β} {cfg : Config} {fuel : ℕ} {s : Shared} {w : Wire β}
variable {c : ReqHead (Wire β)} {q : NbdRequest}

variable (host) in
/-- What the receive at a head reads is the request there, if there is one. -/
theorem requestsRead_recvAt (hc : c.x.request.length = 28) :
    requestsRead [⟨.recv c.mem.ctx.sock .request 28, (recvAt (wire host) c).1⟩] =
      (requestAt (wire host) c).toList := by
  have hrecv : (recvAt (wire host) c).1 = c.env.recv 28 := rfl
  simp only [requestsRead, List.filterMap_cons, List.filterMap_nil, requestAt, rawAt, hrecv]
  by_cases hfull : 28 ≤ c.env.input.length
  · have hdata : store c.x.request (c.env.recv 28).data = (c.env.recv 28).data := by
      rw [store_full]
      rw [hc, recv_data_of_le _ hfull, List.length_take, Nat.min_eq_left hfull]
    rw [hdata]
    split_ifs <;> rfl
  · have hshort : asSize (c.env.recv 28).ret < 28 := by
      rw [recv_ret_of_lt _ (Nat.lt_of_not_le hfull)]
      decide
    rw [if_pos (.inl hshort), if_pos (.inl hshort)]
    rfl

theorem requestsRead_headerAt (hc : c.x.request.length = 28)
    (hq : requestAt (wire host) c = some q) :
    requestsRead (headerAt (wire host) c q) = [q] := by
  have hread := requestsRead_recvAt host hc
  rw [hq] at hread
  exact hread

/-- What a round sends, when it goes on, when it returns, and when it goes wrong. -/
structure RoundFrame (ctx : ContextNbd) (q : NbdRequest) (o : Outcome (Ctl Vars ℤ)) (h : List Ev) :
    Prop where
  /-- It read this request. -/
  read : requestsRead h = [q]
  /-- When it goes on, it sent the frame if the request is of whole blocks, and only then. -/
  next : ∀ x, o = .ret (.next x) → (Frame q (sentBytes h) ↔ WholeBlocks ctx q)
  /-- When it returns, it sent the frame of a DISC, or that of a READ, cut short. -/
  done : ∀ r, o = .ret (.done r) → Frame q (sentBytes h) ∨
    r = -1 ∧ ReadFailed h ∧ CutFrame q (sentBytes h)
  /-- It goes wrong only where a callback is missing. -/
  wrong : o = .halt .undefined → ¬ HasCallbacks ctx q

theorem RoundFrame.of_reply {ctx : ContextNbd} {x : Vars} {h : List Ev} (error : UInt32)
    (hread : requestsRead h = [q]) (hsent : sentBytes h = simpleReply error q.handle)
    (ht : q.type ≠ NBD_CMD_DISC)
    (he : q.type = NBD_CMD_READ → error ≠ NBD_SUCCESS ∧ outOfRange ctx.exportsize q = true) :
    RoundFrame ctx q (.ret (.next x)) h where
  read := hread
  next _ _ := by
    rw [hsent]
    refine iff_of_true (frame_reply ht fun h => (he h).1) fun h h' => ?_
    rw [(he h).2] at h'
    cases h'
  done := by simp
  wrong := by simp

theorem RoundFrame.of_fuel {ctx : ContextNbd} {h : List Ev} (hread : requestsRead h = [q]) :
    RoundFrame ctx q (.halt .fuel) h := ⟨hread, by simp, by simp, by simp⟩

theorem RoundFrame.of_wrong {ctx : ContextNbd} {h : List Ev} (hread : requestsRead h = [q])
    (hw : ¬ HasCallbacks ctx q) : RoundFrame ctx q (.halt .undefined) h :=
  ⟨hread, by simp, by simp, fun _ => hw⟩

/-- The data of a READ that were sent after `i` chunks. -/
structure Sending (cfg : Config) (blocksize : UInt32) (q : NbdRequest) (x : Vars) (h : List Ev)
    (i : ℕ) : Prop where
  /-- So many chunks were served. -/
  serving : x.Serving cfg blocksize q i
  /-- The reply was sent, and their data. -/
  sent : ∃ data, sentBytes h = simpleReply NBD_SUCCESS q.handle ++ data ∧
    data.length = q.blocksBefore cfg blocksize i * blocksize.toNat
  /-- No more is to be sent when all were. -/
  last : x.sendflag = 0 → q.blocksBefore cfg blocksize i = q.blocks blocksize

/-- What holds in the loop of a READ: it was refused, or so many chunks were sent. -/
def Reading (cfg : Config) (ctx : ContextNbd) (q : NbdRequest) (x : Vars) (h : List Ev) : Prop :=
  requestsRead h = [q] ∧
    (outOfRange ctx.exportsize q = true ∧ x.sendflag = 0 ∧
      sentBytes h = simpleReply NBD_EIO q.handle ∨ outOfRange ctx.exportsize q = false ∧
      ∃ i, Sending cfg ctx.minimumBlockSize q x h i)

/-- What holds in the loop of a WRITE: nothing is sent, and there are no chunks if it was
refused. -/
def Writing (ctx : ContextNbd) (q : NbdRequest) (x : Vars) (h : List Ev) : Prop :=
  requestsRead h = [q] ∧ sentBytes h = [] ∧ (writeError ctx q = NBD_SUCCESS ∨ x.sendflag = 0)

theorem requestsRead_concat {h h' : List Ev} (hh : requestsRead h = [q])
    (h0 : requestsRead h' = []) :
    requestsRead (h ++ h') = [q] := by
  rw [requestsRead_append, hh, h0, List.append_nil]

theorem sentBytes_concat {h h' : List Ev} {out : Bytes} (hh : sentBytes h = out)
    (h0 : sentBytes h' = []) :
    sentBytes (h ++ h') = out := by
  rw [sentBytes_append, hh, h0, List.append_nil]

theorem sentBytes_concat_send {h : List Ev} {sock : ℤ} {obj : Obj} {buf : Bytes} {flags : ℤ}
    {k : Sent buf.length} (hh : sentBytes h = []) :
    sentBytes (h ++ [⟨.send sock obj buf flags, k⟩]) = buf := by
  rw [sentBytes_append, hh, sentBytes_send, sentBytes_nil, List.append_nil, List.nil_append]

theorem reading_rules (ht : q.type = NBD_CMD_READ) :
    ReadRules (wire host) s cfg s.ctx.minimumBlockSize (fun o _ _ h => RoundFrame s.ctx q o h)
      (fun x _ h => Reading cfg s.ctx q x h) where
  leave := by
    rintro x w h - ⟨hh, ⟨hr, -, hs⟩ | ⟨hr, i, hs⟩⟩ h0
    · exact .of_reply _ hh hs (by rw [ht]; decide) fun _ => ⟨by decide, hr⟩
    · obtain ⟨data, hd, hlen⟩ := hs.sent
      refine ⟨hh, fun _ _ => ?_, by simp, by simp⟩
      rw [hd, frame_read_iff ht, hlen, hs.last h0]
      exact ⟨fun heq _ _ => ⟨_, by rw [Nat.mul_comm]; exact heq.symm⟩,
        fun hw => Nat.div_mul_cancel (hw ht hr)⟩
  null := by
    rintro x w h - ⟨hh, ⟨-, h0, -⟩ | ⟨hr, -⟩⟩ hne hp
    · exact absurd h0 hne
    · exact .of_wrong hh fun hcb => hcb.read ht hr hp
  sent := by
    rintro x w h p r w₁ k w₂ hx ⟨hh, ⟨-, h0, -⟩ | ⟨hr, i, hs⟩⟩ hne - - - z - -
    · exact absurd h0 hne
    refine ⟨requestsRead_concat hh rfl, .inr ⟨hr, i + 1, hs.serving.advance, ?_, fun h0 => ?_⟩⟩
    · obtain ⟨data, hd, hlen⟩ := hs.sent
      have hz := hx.chunk.fill (d := r.data)
      refine ⟨data ++ z.nbdBuffer.take z.byteread.toNat, ?_, ?_⟩
      · rw [sentBytes_append, hd, List.append_assoc]
        exact congrArg _ (congrArg _ (List.append_nil _))
      · rw [List.length_append, hlen, hz.length_take, hz.bytes, fill_bufblksz, hs.serving.blocks,
          blocksBefore_succ, Nat.add_mul]
    · exact blocksBefore_of_le (hs.serving.blocks_le hne h0)
  cut := by
    rintro x w h p r w₁ k w₂ hx - - - - - z hk hne hz
    refine absurd ?_ hne
    rw [(wire_send_eq hk).1, hz.length_take]
  again := by
    rintro x w h p r w₁ hx ⟨hh, ⟨-, h0, -⟩ | ⟨hr, i, hs⟩⟩ hne - - - -
    · exact absurd h0 hne
    obtain ⟨data, hd, hlen⟩ := hs.sent
    exact ⟨requestsRead_concat hh rfl, .inr ⟨hr, i, hs.serving.chunk.congr rfl rfl rfl,
      ⟨data, sentBytes_concat hd rfl, hlen⟩, by simp⟩⟩
  fail := by
    rintro x w h p r w₁ - ⟨hh, ⟨-, h0, -⟩ | ⟨hr, i, hs⟩⟩ hne - - hfail -
    · exact absurd h0 hne
    obtain ⟨data, hd, hlen⟩ := hs.sent
    refine ⟨requestsRead_concat hh rfl, by simp, ?_, by simp⟩
    rintro r' ⟨⟩
    refine .inr ⟨rfl, ⟨_, _, _, _, r, List.getLast?_concat, hfail⟩, ht, data,
      sentBytes_concat hd rfl, ?_⟩
    rw [hlen]
    exact blocksBefore_mul_le cfg _ q i

theorem writing_rules (ht : q.type = NBD_CMD_WRITE) :
    WriteRules (wire host) s cfg s.ctx.minimumBlockSize
      (Post.thenReply (wire host) q.handle fun o _ _ h => RoundFrame s.ctx q o h)
      (fun x _ _ h => Writing s.ctx q x h) where
  leave := by
    rintro x e w h - ⟨hh, hs, -⟩ - k w₁ -
    exact .of_reply e (requestsRead_concat hh rfl) (sentBytes_concat_send hs) (by rw [ht]; decide)
      fun ht' => absurd (ht.symm.trans ht') (by decide)
  null := by
    rintro x e w h r w₁ - ⟨hh, -, hacc | h0⟩ hne hp - -
    · refine .of_wrong (requestsRead_concat hh rfl) fun hcb => ?_
      obtain ⟨p, hp', hw⟩ := hcb.write ht hacc
      rw [hp p hp'] at hw
      cases hw
    · exact absurd h0 hne
  written := by
    rintro x e w h p r w₁ k w₂ - ⟨hh, hs, hacc | h0⟩ hne - - - - z - -
    · exact ⟨requestsRead_concat hh rfl, sentBytes_concat hs rfl, .inl hacc⟩
    · exact absurd h0 hne
  failed := by
    rintro x e w h p r w₁ k w₂ - ⟨hh, hs, hacc | h0⟩ hne - - - - z - -
    · exact ⟨requestsRead_concat hh rfl, sentBytes_concat hs rfl, .inl hacc⟩
    · exact absurd h0 hne
  cut := by
    rintro x e w h r w₁ - ⟨hh, hs, hacc | h0⟩ hne - -
    · exact ⟨requestsRead_concat hh rfl, sentBytes_concat hs rfl, .inl hacc⟩
    · exact absurd h0 hne

variable (fuel) in
/-- What a round sends, as its request's frame. -/
theorem round_framed (hb : c.mem.ctx.minimumBlockSize ≠ 0)
    (hc : c.x.Ok cfg c.mem.ctx.minimumBlockSize) (h0 : c.x.sendflag = 0)
    (hq : requestAt (wire host) c = some q) :
    wp (wire host) (serveIn cfg fuel c.mem c.x) (fun o _ _ h => RoundFrame c.mem.ctx q o h)
    c.mem c.env := by
  have hread := requestsRead_headerAt hc.request hq
  have hsent : sentBytes (headerAt (wire host) c q) = [] := rfl
  have H : RoundRules (wire host) cfg c.mem.ctx.minimumBlockSize c q
      (fun o _ _ h => RoundFrame c.mem.ctx q o h) (fun x _ h => Reading cfg c.mem.ctx q x h)
      (fun x _ _ h => Writing c.mem.ctx q x h) :=
    { readLoop := reading_rules
      readRefused := by
        rintro - hr k w₁ -
        exact ⟨requestsRead_concat hread rfl, .inl ⟨hr, h0, sentBytes_concat_send hsent⟩⟩
      readAccepted := by
        rintro - hr - k w₁ -
        refine ⟨requestsRead_concat hread rfl,
          .inr ⟨hr, 0, accept_serving, ⟨[], ?_, ?_⟩, fun h0 => ?_⟩⟩
        · rw [sentBytes_concat_send hsent, List.append_nil]
        · rw [blocksBefore_zero, Nat.zero_mul]
          rfl
        · exact absurd h0 (by rw [accept_sendflag]; decide)
      readZero := fun _ _ hz => absurd hz hb
      writeLoop := writing_rules
      writeRefused := fun _ _ => ⟨hread, hsent, .inr h0⟩
      writeAccepted := fun _ hr _ => ⟨hread, hsent, .inl hr⟩
      writeZero := fun _ _ hz => absurd hz hb
      disc :=
        fun ht => ⟨hread, by simp, fun _ _ => .inl (by rw [Frame, if_pos ht]; exact hsent), by simp⟩
      flush := by
        rintro ht p r w₁ k w₂ - - - -
        refine .of_reply (if r = 0 then NBD_SUCCESS else NBD_EIO) (requestsRead_concat hread rfl) ?_
          (by rw [ht]; decide) fun ht' => absurd (ht.symm.trans ht') (by decide)
        exact sentBytes_concat_send (h := headerAt (wire host) c q ++ [⟨.flush .., r⟩]) rfl
      flushNull := fun ht hp => .of_wrong hread fun hcb => by
        obtain ⟨p, hp', hf⟩ := hcb.flush ht
        rw [hp p hp'] at hf
        cases hf
      other := by
        rintro h₁ - h₃ - k w₁ -
        exact .of_reply NBD_EINVAL (requestsRead_concat hread rfl) (sentBytes_concat_send hsent) h₃
          fun ht => absurd ht h₁ }
  exact H.round hq (fun _ _ _ _ hJ => .of_fuel hJ.1) (fun _ _ _ _ _ hJ => .of_fuel hJ.1) hc

/-! ### Every run -/

/-- A request that can be served, and in whole blocks. -/
def Servable (ctx : ContextNbd) (q : NbdRequest) : Prop := WholeBlocks ctx q ∧ HasCallbacks ctx q

/-- The output of the request loop is framed, if every request can be served. -/
theorem loop_framed (h1 : 1 ≤ s.ctx.minimumBlockSize.toNat) {x : Vars}
    (hx : x.Ok cfg s.ctx.minimumBlockSize) (h0 : x.sendflag = 0) :
    wp (wire host) (Prog.loop fuel (serveIn cfg fuel s) x)
      (fun o _ _ h => o ≠ .halt .fuel → (∀ q ∈ requestsRead h, Servable s.ctx q) →
        Framed o h (sentBytes h)) s w := by
  have hb : s.ctx.minimumBlockSize ≠ 0 := by
    intro hb
    rw [hb] at h1
    exact absurd h1 (by decide)
  refine wp_loop (wire host) (Q := fun o _ _ h => o ≠ .halt .fuel →
      (∀ q ∈ requestsRead h, Servable s.ctx q) → Framed o h (sentBytes h))
    (fun x s' _ h => s' = s ∧ x.Ok cfg s.ctx.minimumBlockSize ∧ x.sendflag = 0 ∧
      ((∀ q ∈ requestsRead h, Servable s.ctx q) → Frames (requestsRead h) (sentBytes h)))
    (fun _ _ _ _ _ hne => absurd rfl hne) ?_ fuel x s w [] ⟨rfl, hx, h0, fun _ => .nil⟩
  rintro x s' w' h ⟨rfl, hx, h0, hframes⟩
  let c : ReqHead (Wire β) := ⟨x, s', w'⟩
  cases hq : requestAt (wire host) c with
  | none =>
    refine wp_round_none (c := c) hq fun _ hserv => ?_
    have hread := requestsRead_recvAt host (c := c) hx.request
    rw [hq] at hread
    rw [requestsRead_append, hread, Option.toList_none, List.append_nil] at hserv
    refine ⟨⟨_, rfl⟩, .inl ?_⟩
    rw [requestsRead_append, hread, Option.toList_none, List.append_nil, sentBytes_append]
    exact (List.append_nil (sentBytes h)).symm ▸ hframes hserv
  | some q =>
    have hround :
        wp (wire host) (serveIn cfg fuel s' x) (fun o s'' _ h' => RoundFrame s'.ctx q o h' ∧
        ∀ x', o = .ret (.next x') → s'' = s' ∧ x'.Ok cfg s'.ctx.minimumBlockSize ∧
        x'.sendflag = 0) s' w' :=
      ⟨round_framed fuel (c := c) hb hx h0 hq, round_frame_wire fuel host (c := c) hx h0⟩
    refine wp_mono _ ?_ hround
    rintro o s'' w'' h' ⟨hf, hnext⟩
    have hread : requestsRead (h ++ h') = requestsRead h ++ [q] := by
      rw [requestsRead_append, hf.read]
    have hsplit : (∀ q' ∈ requestsRead h ++ [q], Servable s'.ctx q') →
        Frames (requestsRead h) (sentBytes h) ∧ Servable s'.ctx q := fun hserv =>
      ⟨hframes fun q' hmem => hserv q' (List.mem_append_left _ hmem), hserv q (by simp)⟩
    rcases o with (x' | r) | (_ | _)
    · obtain ⟨hs, hok, h0'⟩ := hnext x' rfl
      refine ⟨hs, hok, h0', fun hserv => ?_⟩
      rw [hread] at hserv ⊢
      rw [sentBytes_append]
      obtain ⟨hfr, hsq⟩ := hsplit hserv
      exact hfr.snoc ((hf.next x' rfl).mpr hsq.1)
    · intro _ hserv
      rw [hread] at hserv
      rw [Framed, hread, sentBytes_append]
      obtain ⟨hfr, -⟩ := hsplit hserv
      rcases hf.done r rfl with hd | ⟨rfl, hfail, hd⟩
      · exact ⟨⟨r, rfl⟩, .inl (hfr.snoc hd)⟩
      · exact ⟨⟨_, rfl⟩, .inr ⟨rfl, hfail.append_left, _, q, _, _, rfl, rfl, hfr, hd⟩⟩
    · exact fun hne => absurd rfl hne
    · intro _ hserv
      rw [hread] at hserv
      exact absurd (hsplit hserv).2.2 (hf.wrong rfl)

/-- **Replies are framed.** Over the lossless transport, with whatever plugin, `transmission_phase`
ends; if every request it read can be served, and in whole blocks, it returned and its output
is framed; and a round that goes on sent the frame of its request if and only if that is of
whole blocks. -/
theorem replies_framed (host : Env Call Resp β) (cfg : Config) (s : Shared) (w : Wire β)
    (h1 : 1 ≤ s.ctx.minimumBlockSize.toNat) (h2 : s.ctx.minimumBlockSize.toNat ≤ cfg.bufferLen) :
    (∃ N, ∀ fuel ≥ N, ((transmissionPhase cfg fuel).run (wire host) s w).out ≠ .halt .fuel) ∧
    (∀ fuel, let z := (transmissionPhase cfg fuel).run (wire host) s w
      z.out ≠ .halt .fuel → (∀ q ∈ requestsRead z.trace, Servable s.ctx q) →
      ∃ out, z.env.output = w.output ++ out ∧ Framed z.out z.trace out) ∧
    ∀ fuel c, AtRequest (wire host) cfg fuel (fun _ => True) s w c →
    ∀ q, requestAt (wire host) c = some q →
      ∀ x', (roundAt (wire host) cfg fuel c).out = .ret (.next x') →
      (Frame q (sentBytes (roundAt (wire host) cfg fuel c).trace) ↔ WholeBlocks s.ctx q) := by
  refine ⟨⟨loopFuel cfg + w.input.length + 1, fun fuel hfuel => ?_⟩, fun fuel hne hserv => ?_, ?_⟩
  · exact transmission_ends h1 h2 (by omega) (by omega)
  · have hout := wire_output host (transmissionPhase cfg fuel) s w
    refine ⟨_, hout, ?_⟩
    exact Framed.append_left (h := [⟨.uninit 28, _⟩, ⟨.uninit cfg.bufferLen, _⟩]) rfl
      (loop_framed h1 (firstHead_ok (s := s)) rfl hne hserv)
  · intro fuel c h q hq x' hx'
    obtain ⟨rfl, hc⟩ := h.frame
    have hb : c.mem.ctx.minimumBlockSize ≠ 0 := by
      intro hb
      rw [hb] at h1
      exact absurd h1 (by decide)
    exact (round_framed fuel hb hc h.sendflag_wire hq).next x' hx'

namespace Sample

/-- A client that reads two blocks, and flushes. -/
def readFlush : Wire Unit :=
  client ((ask NBD_CMD_READ 2 4).toBytes ++ (ask NBD_CMD_FLUSH 0 0).toBytes)

theorem readFlush_servable :
    ∀ q ∈ [ask NBD_CMD_READ 2 4, ask NBD_CMD_FLUSH 0 0], Servable twos.ctx q := by
  intro q hq
  simp only [List.mem_cons, List.not_mem_nil, or_false] at hq
  rcases hq with rfl | rfl
  · exact ⟨fun _ _ => by decide, fun _ _ => by decide, fun ht => absurd ht (by decide),
                                                 fun ht => absurd ht (by decide)⟩
  · exact ⟨fun ht => absurd ht (by decide), fun ht => absurd ht (by decide),
      fun ht => absurd ht (by decide), fun _ => ⟨plugin, rfl, rfl⟩⟩

/-- The replies to a READ of two blocks and a FLUSH are framed. -/
theorem replies_framed_two : let z :=
  (transmissionPhase Sample.cfg 99).run (wire quiet) twos readFlush
    ∃ out, z.env.output = [] ++ out ∧ Framed z.out z.trace out :=
  (replies_framed quiet Sample.cfg twos readFlush (by decide) (by decide)).2.1 99
    (by decide +kernel) (by
    have hread :
        requestsRead ((transmissionPhase Sample.cfg 99).run (wire quiet) twos readFlush).trace =
        [ask NBD_CMD_READ 2 4, ask NBD_CMD_FLUSH 0 0] := by decide +kernel
    rw [hread]
    exact readFlush_servable)

/-- **A READ of one byte is answered without it**, when blocks have two. -/
theorem replies_not_framed :
    ¬ ∀ (β : Type) (host : Env Call Resp β) (cfg : Config) (s : Shared) (w : Wire β) (fuel : ℕ),
      1 ≤ s.ctx.minimumBlockSize.toNat → s.ctx.minimumBlockSize.toNat ≤ cfg.bufferLen →
      let z := (transmissionPhase cfg fuel).run (wire host) s w
      z.out ≠ .halt .fuel → ∃ out, z.env.output = w.output ++ out ∧ Framed z.out z.trace out := by
  intro h
  let w : Wire Unit := client (ask NBD_CMD_READ 0 1).toBytes
  let z := (transmissionPhase Sample.cfg 9).run (wire quiet) twos w
  obtain ⟨out, hout, -, hf | ⟨-, hfail, -⟩⟩ := h _ quiet Sample.cfg twos w 9 (by decide) (by decide)
    (by decide +kernel)
  · have hread : requestsRead z.trace = [ask NBD_CMD_READ 0 1] := by decide +kernel
    have hsent : z.env.output = simpleReply NBD_SUCCESS (ask NBD_CMD_READ 0 1).handle ++ [] := by
      decide +kernel
    rw [hread] at hf
    rw [hsent] at hout
    have hframe := hf.singleton
    rw [show out = simpleReply NBD_SUCCESS (ask NBD_CMD_READ 0 1).handle ++ [] from hout.symm,
      frame_read_iff rfl] at hframe
    exact absurd hframe (by decide)
  · obtain ⟨p, handle, n, o, r, hlast, -⟩ := hfail
    have hrecv : z.trace.getLast?.map (fun e => e.1.isRecv) = some true := by decide +kernel
    rw [hlast] at hrecv
    cases hrecv

end Sample

end LwNBD
