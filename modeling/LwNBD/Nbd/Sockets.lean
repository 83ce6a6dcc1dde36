import LwNBD.Nbd.Alike
import LwNBD.Nbd.Loops
import LwNBD.Nbd.Sample
import LwNBD.Nbd.Tcp
import LwNBD.Resumption.Simulate
import LwNBD.Resumption.Yields

/-!
# Sessions over sockets

A session is proved over a lossless transport, whose answer to a receive is all that was asked for.
Below it is a socket, which delivers what it has, and `tcp_recv_block`, which asks again. So it is
the same session: how the bytes were cut is seen by nobody above.

## The model

* `Stack` — what is below a session: the network, the memory that is received into, and what `Wire`
  has besides.
* `sockets` — the environment whose receives are answered by `tcp_recv_block`. What is sent goes, as
  over `Wire`.
* `Call.Asks` — a receive from a socket, of no more bytes than `nbd_buffer` may have.

## What is proved

* `session_modest` — no receive of a session asks for more.
* `sockets_simulates` — a socket that delivers the client's bytes, in whatever pieces, stands for
  the wire.
* `session_over_sockets` — a session over such a socket is the session over the wire.
-/

namespace LwNBD

open Resumption

/-! ### What is received at once -/

/-- A receive asks for no more bytes than `NBD_BUFFER_LEN` may have. -/
def Call.Modest : Call → Prop
  | .recv _ _ len => len ≤ 4096
  | _ => True

section Modest

variable {α : Type} {post : α → Prop} {cfg : Config} {fuel : ℕ} {blocksize : UInt32}

theorem modest_ctxNow {f : ContextNbd → Server α} (h : ∀ ctx, (f ctx).Yields Call.Modest post) :
    (ctxNow >>= f).Yields Call.Modest post := fun s => h s.ctx

theorem modest_call {e : Call} {f : Resp e → Server α} (he : e.Modest)
    (h : ∀ r, (f r).Yields Call.Modest post) : (Prog.perform e >>= f).Yields Call.Modest post :=
  ⟨he, h⟩

theorem modest_perform {e : Call} (he : e.Modest) :
    (Prog.perform e : Server (Resp e)).Yields Call.Modest fun _ => True :=
  .perform he

theorem modest_bind {γ : Type} {p : Server γ} {f : γ → Server α}
    (hp : p.Yields Call.Modest fun _ => True) (h : ∀ c, (f c).Yields Call.Modest post) :
    (p >>= f).Yields Call.Modest post := hp.bind fun c _ => h c

/-! ### The handshake -/

theorem greet_modest (c : NbdClient) : (greet c).Yields Call.Modest fun _ => True := by
  refine modest_call trivial fun cflags => modest_ctxNow fun ctx => modest_call trivial fun size =>
    ?_
  refine .ite (fun _ => .pure trivial) fun _ => ?_
  refine modest_call (by decide : (4 : ℕ) ≤ 4096) fun r => ?_
  refine .ite (fun _ => .pure trivial) fun _ => modest_ctxNow fun ctx => ?_
  exact .ite (fun _ => .pure trivial) fun _ => .pure trivial

theorem readNewOption_modest (x : OptVars) : (readNewOption x).Yields Call.Modest fun _ =>
    True := by
  refine modest_call (by decide : (16 : ℕ) ≤ 4096) fun r => ?_
  refine .ite (fun _ => .pure trivial) fun _ => ?_
  exact .ite (fun _ => .pure trivial) fun _ => .pure trivial

theorem readOptionData_modest {x : OptVars} {optlen : UInt32} (h : optlen.toNat ≤ cfg.bufferLen) :
    (readOptionData cfg x optlen).Yields Call.Modest fun _ => True := by
  refine .ite (fun _ => ?_) fun _ => .pure trivial
  refine modest_call (Nat.le_trans h cfg.bufferLen_le) fun r => ?_
  refine .ite (fun _ => .pure trivial) fun _ => modest_call trivial fun _ => ?_
  exact .ite (fun _ => .halt _) fun _ => .pure trivial

theorem readOption_modest (x : OptVars) : (readOption cfg x).Yields Call.Modest fun _ => True := by
  refine modest_bind (readNewOption_modest x) fun o => ?_
  rcases o with _ | ⟨newOpt, raw⟩
  · exact .pure trivial
  refine modest_call trivial fun _ => .ite (fun _ => .pure trivial) fun hle => ?_
  refine modest_bind (readOptionData_modest (Nat.not_lt.mp hle)) fun b => ?_
  cases b with
  | none => exact .pure trivial
  | some nbdBuffer => exact .pure trivial

theorem sendOptionReply_modest (option reply replylen : UInt32) (flags : ℤ) :
    (sendOptionReply option reply replylen flags).Yields Call.Modest fun _ => True :=
  modest_ctxNow fun _ => modest_call trivial fun _ => .pure trivial

theorem sendPiece_modest (obj : Obj) (buf : Bytes) :
    (sendPiece obj buf).Yields Call.Modest fun _ => True :=
  modest_ctxNow fun _ => modest_call trivial fun _ => .pure trivial

theorem modest_and {p q : Server Bool} (hp : p.Yields Call.Modest fun _ => True)
    (hq : q.Yields Call.Modest fun _ => True) :
    (do if ← p then q else pure false : Server Bool).Yields Call.Modest fun _ => True := by
  refine modest_bind hp fun b => ?_
  cases b with
  | false => exact .pure trivial
  | true => exact hq

theorem sendList_modest (option : UInt32) : (sendList option).Yields Call.Modest fun _ => True := by
  refine .loop (fun _ => True) (fun i _ => ?_) _ trivial
  refine modest_bind .read fun s => ?_
  dsimp only
  split_ifs
  · refine modest_bind (modest_and (sendOptionReply_modest _ _ _ _)
      (modest_and (sendPiece_modest _ _)
      (modest_and (sendPiece_modest _ _) (sendPiece_modest _ _)))) fun b => ?_
    cases b with
    | false => exact .pure trivial
    | true => exact .pure trivial
  · exact .pure trivial

theorem lwnbdUpdateSize_modest (i : ContextIdx) :
    (lwnbdUpdateSize i).Yields Call.Modest fun _ => True := by
  refine modest_bind .read fun s => ?_
  dsimp only
  cases (s.reg.get i).p with
  | none => exact .halt _
  | some p => exact .ite (fun _ => modest_call trivial fun _ => .modify _) fun _ => .halt _

theorem lwnbdGetContext_modest (uri : Bytes) :
    (lwnbdGetContext uri).Yields Call.Modest fun _ => True := by
  refine modest_call trivial fun _ => modest_bind .read fun s => ?_
  dsimp only
  cases s.reg.getContextString (yuarelParse uri).path with
  | none => exact .pure trivial
  | some i =>
    dsimp only
    cases (s.reg.get i).p with
    | none => exact .halt _
    | some p =>
      have htail (ret : ℤ) : (if ret ≠ 0 then pure none else do lwnbdUpdateSize i; pure (some i) :
          Server (Option ContextIdx)).Yields Call.Modest fun _ => True :=
        .ite (fun _ => .pure trivial) fun _ => modest_bind (lwnbdUpdateSize_modest i) fun _ =>
          .pure trivial
      by_cases hq : p.query = true
      · simp only [hq, if_true]
        exact modest_call trivial htail
      · simp only [hq, pure_bind]
        exact htail 0

theorem optExportName_modest (cflags : UInt32) (x : OptVars) (optlen : UInt32) :
    (optExportName cflags x optlen).Yields Call.Modest fun _ => True := by
  refine modest_bind (.ite (fun _ => lwnbdGetContext_modest _) fun _ => .pure trivial) fun e => ?_
  refine .ite (fun _ => .pure trivial) fun _ => modest_ctxNow fun ctx =>
    modest_call trivial fun size => ?_
  exact .ite (fun _ => .pure trivial) fun _ => modest_bind (.modify _) fun _ => .pure trivial

/-- What is done when an answer went, and when it did not. -/
theorem modest_answered {γ : Type} {p : Server Bool} {q r : Server γ}
    (hp : p.Yields Call.Modest fun _ => True) (hq : q.Yields Call.Modest fun _ => True)
    (hr : r.Yields Call.Modest fun _ => True) :
    (do if ← p then q else r : Server γ).Yields Call.Modest fun _ => True := by
  refine modest_bind hp fun b => ?_
  cases b with
  | false => exact hr
  | true => exact hq

theorem serveOption_modest (cflags : UInt32) (x : OptVars) :
    (serveOption cfg cflags x).Yields Call.Modest fun _ => True := by
  refine modest_bind (readOption_modest x) fun o => ?_
  rcases o with _ | ⟨y, newOpt⟩
  · exact .pure trivial
  refine .ite (fun _ => optExportName_modest _ _ _) fun _ => .ite (fun _ => ?_) fun _ =>
    .ite (fun _ => ?_) fun _ => ?_
  · exact modest_answered (sendOptionReply_modest _ _ _ _)
      (modest_bind (.modify _) fun _ => .pure trivial) (.pure trivial)
  · exact modest_answered (sendList_modest _)
      (modest_answered (sendOptionReply_modest _ _ _ _) (.pure trivial) (.pure trivial))
      (.pure trivial)
  · exact modest_answered (sendOptionReply_modest _ _ _ _) (.pure trivial) (.pure trivial)

theorem handshake_modest (c : NbdClient) :
    (protocolHandshake cfg fuel c).Yields Call.Modest fun _ => True := by
  refine modest_bind (greet_modest c) fun o => ?_
  cases o with
  | none => exact .pure trivial
  | some cflags =>
    refine modest_call trivial fun newOpt => modest_call trivial fun nbdBuffer => ?_
    refine .loop (fun _ => True) (fun x _ => (serveOption_modest cflags x).mono fun o _ => ?_) _
      trivial
    cases o with
    | next x => trivial
    | done r => trivial

/-! ### The transmission phase -/

/-- The variables, when a loop goes round again, or the request loop does. -/
abbrev ChunkOk (cfg : Config) (blocksize : UInt32) : Ctl Vars (Ctl Vars ℤ) → Prop :=
  Ctl.Both (Vars.Ok cfg blocksize) (Ctl.Both (Vars.Ok cfg blocksize) fun _ => True)

theorem lwnbdPread_modest (me : Context) (count : UInt32) (offset : UInt64) :
    (lwnbdPread me count offset).Yields Call.Modest fun _ => True := by
  unfold lwnbdPread
  cases me.p with
  | none => exact .halt _
  | some p => exact modest_perform (e := .pread p me.handle count offset) trivial

theorem lwnbdPwrite_modest (me : Context) (buf : Bytes) (count : UInt32) (offset : UInt64) :
    (lwnbdPwrite me buf count offset).Yields Call.Modest fun _ => True := by
  unfold lwnbdPwrite
  cases me.p with
  | none => exact .halt _
  | some p => exact .ite (fun _ => modest_perform (e := .pwrite p me.handle buf count offset)
                trivial) fun _ => .halt _

theorem lwnbdFlush_modest (me : Context) : (lwnbdFlush me).Yields Call.Modest fun _ => True := by
  unfold lwnbdFlush
  cases me.p with
  | none => exact .halt _
  | some p =>
    exact .ite (fun _ => modest_perform (e := .flush p me.handle) trivial) fun _ => .halt _

theorem readRequest_modest {x : Vars} (hx : x.Ok cfg blocksize) :
    (readRequest x).Yields Call.Modest fun o => ∀ y ∈ o, y.1.Ok cfg blocksize := by
  refine modest_ctxNow fun ctx => modest_call (by decide : (28 : ℕ) ≤ 4096) fun r => ?_
  refine .ite (fun _ => .pure (by simp)) fun _ => .ite (fun _ => .pure (by simp)) fun _ => .pure ?_
  rintro y ⟨⟩
  exact ⟨⟨hx.bytes, hx.fits, hx.buffer⟩, hx.retry_le,
    NbdRequest.length_hostOrder (by simp [hx.request])⟩

theorem readChunk_modest {x : Vars} (hx : x.Ok cfg blocksize) :
    (readChunk cfg blocksize x).Yields Call.Modest (ChunkOk cfg blocksize) := by
  refine .ite (fun _ => .pure hx) fun _ => modest_ctxNow fun ctx => ?_
  refine modest_bind (lwnbdPread_modest _ _ _) fun r =>
    .ite (fun _ => modest_ctxNow fun ctx => modest_call trivial fun r => ?_) fun _ => ?_
  · exact .ite (fun _ => .pure hx.chunk.fill) fun _ => .pure hx.chunk.fill.advance
  · refine .pure ?_
    unfold Vars.tryAgain
    split_ifs
    · exact hx.chunk.fill.again
    · trivial

theorem cmdRead_modest {x : Vars} {q : NbdRequest} (hx : x.Ok cfg blocksize) :
    (cmdRead cfg fuel blocksize x q).Yields Call.Modest
    (Ctl.Both (Vars.Ok cfg blocksize) fun _ => True) := by
  refine modest_ctxNow fun ctx => ?_
  have hloop (error : UInt32) {y : Vars} (hy : y.Ok cfg blocksize) :
      (do let _ ← syncSend (← ctxNow).sock .reply (simpleReply error q.handle) y.sendflag
          Prog.loop fuel (readChunk cfg blocksize) y : Server (Ctl Vars ℤ)).Yields Call.Modest
        (Ctl.Both (Vars.Ok cfg blocksize) fun _ => True) :=
    modest_ctxNow fun ctx => modest_call trivial fun _ =>
      .loop _ (fun y hy => readChunk_modest hy) _ hy
  split_ifs
  · exact hloop _ hx
  · exact .halt _
  · exact hloop _ hx.accept

/-- The body of the loop of a WRITE, which receives a chunk. -/
theorem writeChunk_modest {v : Vars × UInt32} (hx : v.1.Ok cfg blocksize) :
    (writeChunk cfg blocksize v).Yields Call.Modest
      (Ctl.Both (fun v => v.1.Ok cfg blocksize) fun v => v.1.Ok cfg blocksize) := by
  refine .ite (fun _ => .pure hx) fun _ => modest_ctxNow fun ctx => ?_
  refine modest_call (Nat.le_trans hx.chunk.byteread_le cfg.bufferLen_le) fun r => ?_
  refine .ite (fun _ => modest_ctxNow fun ctx => ?_) fun _ => .pure hx.chunk.fill.stop
  refine modest_bind (lwnbdPwrite_modest _ _ _ _) fun r => ?_
  exact .ite (fun _ => .pure hx.chunk.fill.stop.advance) fun _ => .pure hx.chunk.fill.advance

theorem cmdWrite_modest {x : Vars} {q : NbdRequest} (hx : x.Ok cfg blocksize) :
    (cmdWrite cfg fuel blocksize x q).Yields Call.Modest
    (Ctl.Both (Vars.Ok cfg blocksize) fun _ => True) := by
  refine modest_ctxNow fun ctx => ?_
  have hloop {v : Vars × UInt32} (hv : v.1.Ok cfg blocksize) :
      (do let v ← Prog.loop fuel (writeChunk cfg blocksize) v
          let _ ← syncSend (← ctxNow).sock .reply (simpleReply v.2 q.handle) 0
          pure (.next v.1) : Server (Ctl Vars ℤ)).Yields Call.Modest
        (Ctl.Both (Vars.Ok cfg blocksize) fun _ => True) :=
    .bind (.loop (fun v => v.1.Ok cfg blocksize) (fun v hv => writeChunk_modest hv) _ hv) fun v
      hv =>
      modest_ctxNow fun ctx => modest_call trivial fun _ => .pure hv
  split_ifs
  · exact hloop hx
  · exact hloop hx
  · exact .halt _
  · exact hloop hx.accept

theorem serveRequest_modest {x : Vars} (hx : x.Ok cfg blocksize) :
    (serveRequest cfg fuel blocksize x).Yields Call.Modest
      (Ctl.Both (Vars.Ok cfg blocksize) fun _ => True) := by
  refine (readRequest_modest hx).bind fun o ho => ?_
  rcases o with _ | ⟨y, q⟩
  · exact .pure trivial
  have hy : y.Ok cfg blocksize := ho _ rfl
  have hreply (error : UInt32) :
      (do let _ ← syncSend (← ctxNow).sock .reply (simpleReply error q.handle) 0
          pure (.next y) : Server (Ctl Vars ℤ)).Yields Call.Modest
        (Ctl.Both (Vars.Ok cfg blocksize) fun _ => True) :=
    modest_ctxNow fun ctx => modest_call trivial fun _ => .pure hy
  refine modest_call trivial fun _ => .ite (fun _ => cmdRead_modest hy) fun _ =>
    .ite (fun _ => cmdWrite_modest hy) fun _ =>
    .ite (fun _ => modest_bind (.modify _) fun _ => .pure trivial) fun _ =>
    .ite (fun _ => ?_) fun _ => hreply _
  exact modest_ctxNow fun ctx => modest_bind (lwnbdFlush_modest _) fun r => hreply _

theorem transmissionPhase_modest : (transmissionPhase cfg fuel).Yields Call.Modest fun _ =>
    True := by
  have hinit (blocksize : UInt32) (request : {b : Bytes // b.length = 28})
      (nbdBuffer : {b : Bytes // b.length = cfg.bufferLen}) :
      (Vars.init cfg request.1 nbdBuffer.1).Ok cfg blocksize :=
    ⟨⟨by simp [Vars.init], by simp [Vars.init], nbdBuffer.2⟩, Nat.le_refl _, request.2⟩
  have hvars : (transmissionVars cfg).Yields Call.Modest fun v => v.2.Ok cfg v.1 :=
    modest_call trivial fun request => modest_call trivial fun nbdBuffer => modest_ctxNow fun ctx =>
      .pure (hinit _ request nbdBuffer)
  exact .bind hvars fun v hv => .loop _ (fun x hx => serveRequest_modest hx) _ hv

/-! ### Sessions -/

theorem sessionRound_modest (c : NbdClient) :
    (sessionRound cfg fuel c).Yields Call.Modest fun _ => True := by
  have hend (r : ℤ) (d : NbdClient) : (if r = 0 then pure (.next d) else pure (.done r) :
      Server (Ctl NbdClient ℤ)).Yields Call.Modest fun _ => True :=
    .ite (fun _ => .pure trivial) fun _ => .pure trivial
  unfold sessionRound
  cases c.state with
  | handshake =>
    exact modest_call trivial fun _ => modest_bind (handshake_modest c) fun z =>
      modest_ctxNow fun ctx =>
      modest_call trivial fun _ => hend z.1 z.2
  | transmission =>
    exact modest_call trivial fun _ => modest_bind transmissionPhase_modest fun r =>
      modest_ctxNow fun ctx =>
      modest_call trivial fun _ => hend r c
  | abort => exact .pure trivial

/-- No receive of a session asks for more than a buffer may have. -/
theorem session_modest (c : NbdClient) :
    (Prog.loop fuel (sessionRound cfg fuel) c).Yields Call.Modest fun _ => True :=
  .loop (fun _ => True) (fun c _ => (sessionRound_modest c).mono fun o _ => by cases o <;> trivial)
    _ trivial

end Modest

/-! ### The stack -/

/-- What is below a session. -/
structure Stack (ν β : Type) where
  /-- The network. -/
  net : ν
  /-- The memory that is received into. -/
  memory : ℕ → UInt8
  /-- The bytes sent to the client. -/
  output : Bytes
  /-- The host. -/
  host : β

/-- A result and the bytes that were stored. -/
def Recvd.of {len : ℕ} (r : ℤ) (data : Bytes) (h : -1 ≤ r ∧ r ≤ data.length ∧ data.length ≤ len) :
    Recvd len :=
  ⟨r, data, h.1, h.2.1, h.2.2⟩

theorem recvd_nothing (len : ℕ) : -1 ≤ (-1 : ℤ) ∧ (-1 : ℤ) ≤ ([] : Bytes).length ∧
    ([] : Bytes).length ≤ len := by
  simp

theorem sent_all (buf : Bytes) : -1 ≤ (buf.length : ℤ) ∧ (buf.length : ℤ) ≤ buf.length := by
  omega

/-- What a run of `tcp_recv_block` tells the session: its result, and the bytes that `recv`
stored. -/
def Tcp.recvd {W : ℕ} (len : ℕ) (o : Outcome ℤ) (t : List (RecvEv W)) : Recvd len :=
  match o with
  | .ret r =>
    if h : -1 ≤ r ∧ r ≤ (delivered t).length ∧ (delivered t).length ≤ len then .of r (delivered t) h
    else .of (-1) [] (recvd_nothing len)
  | .halt _ => .of (-1) [] (recvd_nothing len)

/-- The environment over sockets: `tcp_recv_block` receives, into the object at `addr`, and `send`
sends. -/
def sockets {W : ℕ} {ν β : Type} (net : Env Tcp.TcpCall (Tcp.TcpResp W) ν)
    (fuel : ℕ) (addr : Obj → ℕ) (host : Env Call Resp β) : Env Call Resp (Stack ν β)
  | x, .recv sock obj len =>
    let y := (Tcp.tcpRecvBlock fuel sock (addr obj) (.ofNat W len) 0).run net x.memory x.net
    (Tcp.recvd len y.out y.trace, { x with net := y.env, memory := y.mem })
  | x, .send _ _ buf _ => (⟨buf.length, sent_all buf⟩, { x with output := x.output ++ buf })
  | x, e => ((host x.host e).1, { x with host := (host x.host e).2 })

section Sockets

variable {W : ℕ} {ν β : Type} {net : Env Tcp.TcpCall (Tcp.TcpResp W) ν} {fuel : ℕ} {addr : Obj → ℕ}
  {host : Env Call Resp β} {input : ν → Bytes} {sock : ℤ}

/-- The wire, and what stands for it: the network is to deliver the same bytes. -/
structure Under (input : ν → Bytes) (w : Wire β) (x : Stack ν β) : Prop where
  /-- What is to come. -/
  input : w.input = input x.net
  /-- What was sent. -/
  output : x.output = w.output
  /-- The host. -/
  host : x.host = w.host

/-- A receive is from socket `sock`, of no more bytes than `nbd_buffer` may have. -/
def Call.Asks (sock : ℤ) : Call → Prop
  | .recv k _ len => k = sock ∧ len ≤ 4096
  | _ => True

/-- What `tcp_recv_block` returned and stored is what the session is told. -/
theorem Tcp.recvd_eq {len : ℕ} {t : List (Tcp.RecvEv W)} {r : Recvd len}
    (hdata : Tcp.delivered t = r.data) : Tcp.recvd len (.ret r.ret) t = r := by
  unfold Tcp.recvd
  simp only [hdata]
  exact dif_pos ⟨r.ret_ge, r.ret_le, r.data_le⟩

variable (host addr) in
/-- A socket that delivers the client's bytes stands for the wire, however they are cut. -/
theorem sockets_simulates (hW : 14 ≤ W) (hc : Tcp.Connected net sock input) (hfuel : 4096 < fuel) :
    Simulates (Call.Asks sock) (wire host) (sockets net fuel addr host) (Under input) := by
  intro w x e he hI
  have hhost := hI.host
  cases e with
  | recv k obj len =>
    obtain ⟨rfl, hlen⟩ := he
    have hpow : 4096 < 2 ^ (W - 1) := Nat.lt_of_lt_of_le (by decide : 4096 < 2 ^ 13)
      (Nat.pow_le_pow_right (by decide) (by omega))
    have hlt : len < 2 ^ W := Nat.lt_of_le_of_lt hlen (Nat.lt_of_lt_of_le hpow
      (Nat.pow_le_pow_right (by decide) (Nat.sub_le W 1)))
    have htoNat : (BitVec.ofNat W len).toNat = len := by
      rw [BitVec.toNat_ofNat, Nat.mod_eq_of_lt hlt]
    have hmax : (BitVec.ofNat W len).toNat < 2 ^ (W - 1) := by omega
    have hrounds : (BitVec.ofNat W len).toNat < fuel := by omega
    obtain ⟨hout, -, hdata, hinput⟩ := (Tcp.wp_tcpRecvBlock_wire hc hmax hrounds w hI.input :
      wp net (Tcp.tcpRecvBlock fuel k (addr obj) (.ofNat W len) 0) _ x.memory x.net)
    rw [htoNat] at hout hdata hinput
    rw [wire_recv]
    refine ⟨?_, hinput.symm, hI.output, hhost⟩
    dsimp only [sockets]
    rw [hout]
    exact Tcp.recvd_eq hdata
  | send k obj buf flags =>
    rw [wire_send]
    refine ⟨rfl, hI.input, ?_, hhost⟩
    dsimp only [sockets]
    rw [hI.output]
  | _ =>
    rw [wire_host _ _ rfl rfl]
    dsimp only [sockets]
    rw [hhost]
    exact ⟨rfl, hI.input, hI.output, rfl⟩

/-- Over sockets, one host for another. -/
theorem sockets_hosts {β' : Type} {host' : Env Call Resp β'} {ok : Call → Prop} {I : β → β' → Prop}
    (h : Simulates ok host host' I) :
    Simulates ok (sockets net fuel addr host) (sockets net fuel addr host')
      fun y y' => y'.net = y.net ∧ y'.output = y.output ∧ y'.memory = y.memory ∧
      I y.host y'.host := by
  rintro ⟨n, m, output, b⟩ ⟨n', m', output', b'⟩ e he ⟨rfl, rfl, rfl, hI⟩
  cases e with
  | recv k obj len => exact ⟨rfl, rfl, rfl, rfl, hI⟩
  | send k obj buf flags => exact ⟨rfl, rfl, rfl, rfl, hI⟩
  | _ =>
    obtain ⟨hanswer, hnext⟩ := h b b' _ he hI
    exact ⟨hanswer, rfl, rfl, rfl, hnext⟩

/-- A client starts in a record that is as it was, on its own socket, before anything is
received. -/
theorem wp_clientInit {σ : Type} {env : Env Call Resp σ} {s : Shared} {w : σ} :
    wp env (clientInit sock) (fun o s' _ t => s'.ctx = s.ctx ∧ (∀ e ∈ calls t, e.isRecv = false) ∧
      ∀ c, o = .ret (some c) → c.sock = sock) s w := by
  unfold clientInit
  rw [wp_bind, wp_ctxNow, Post.seq_ret]
  split_ifs
  · unfold lwnbdNewContext
    rw [wp_bind, wp_bind, wp_read, Post.seq_ret]
    dsimp only
    split_ifs
    · exact ⟨rfl, by simp [Prog.run, bind, Prog.bind, Prog.modify, pure], by rintro c ⟨⟩; rfl⟩
    · exact ⟨rfl, by simp [Prog.run, pure], fun c h => by cases h⟩
  · rw [wp_bind, wp_perform, Post.seq_ret]
    cases (env w .getDefaultexport).1 with
    | none => exact ⟨rfl, by simp [Call.isRecv], fun c h => by cases h⟩
    | some i => exact ⟨rfl, by simp [Call.isRecv], by rintro c ⟨⟩; rfl⟩

/-- A session receives from its client's socket only, if that is `ctx->sock`. -/
theorem thread_asks {σ : Type} (env : Env Call Resp σ) (cfg : Config) (n : ℕ) {s : Shared}
    (hs : s.ctx.sock = sock) (w : σ) :
    ∀ e ∈ calls ((nbdSynchronousClientThreadCb cfg n sock).run env s w).trace, e.Asks sock := by
  suffices wp env (nbdSynchronousClientThreadCb cfg n sock)
      (fun _ _ _ t => ∀ e ∈ calls t, e.Asks sock) s w from this
  have hasks {e : Call} (h : e.isRecv = false) : e.Asks sock := by
    cases e <;> trivial
  unfold nbdSynchronousClientThreadCb
  rw [wp_bind]
  refine wp_mono env ?_ wp_clientInit
  rintro ((_ | c) | e) s' w' t ⟨hctx, hcalls, hsock⟩
  · simpa using fun e he => hasks (hcalls e he)
  · refine calls_forall_append (fun e he => hasks (hcalls e he)) fun e he => ?_
    have hmodest := (session_modest c).only.calls env s' w' e he
    cases e with
    | recv k obj len =>
      rcases (session_alike cfg n (.refl c)).calls env (Sees.refl s') w' _ he with hspeaks | hnote
      · refine ⟨?_, hmodest⟩
        rw [hspeaks.2 k rfl, hctx, hs, hsock c rfl, ite_self]
      · exact hnote.elim
    | _ => trivial
  · exact fun e he => hasks (hcalls e he)

/-- **A session over a socket is the session over the wire.** Whatever pieces the network delivers
the client's bytes in, a session that talks to its client over `ctx->sock` makes the same calls,
with the same answers, ends the same, and leaves the same in memory and with the host as over a
transport that delivers whole what is asked for; what it did not receive is still to come. -/
theorem session_over_sockets (hW : 14 ≤ W) (hc : Tcp.Connected net sock input)
    (hfuel : 4096 < fuel) (cfg : Config) (n : ℕ) {s : Shared} (hs : s.ctx.sock = sock) {w : Wire β}
    {x : Stack ν β} (hx : Under input w x) :
    let a := (nbdSynchronousClientThreadCb cfg n sock).run (wire host) s w
    let b := (nbdSynchronousClientThreadCb cfg n sock).run (sockets net fuel addr host) s x
    b.out = a.out ∧ b.mem = a.mem ∧ b.trace = a.trace ∧ Under input a.env b.env :=
  (sockets_simulates addr host hW hc hfuel).run _ s hx (thread_asks (wire host) cfg n hs w)

end Sockets

namespace Sample

/-- A network that delivers a byte at a time. -/
def dribble : Env Tcp.TcpCall (Tcp.TcpResp 64) Bytes
  | w, .recv _ _ len _ =>
    (some ⟨w.take (min 1 len), by rw [List.length_take]; omega, by rw [List.length_take]; omega⟩,
      w.drop (min 1 len))

theorem connected_dribble (sock : ℤ) : Tcp.Connected dribble sock id where
  counts := fun w mem len flags => Int.natCast_nonneg _
  next := fun w mem len flags => (List.take_append_drop (min 1 len) w).symm
  ends := fun w mem len flags hlen h => by
    have hnil : w.take (min 1 len) = [] := h
    rcases List.take_eq_nil_iff.mp hnil with hzero | hnil
    · omega
    · exact hnil

/-- A server with a default export. -/
def ready : Shared := { mem with ctx := { ctx with preinit := 1 } }

/-- A client that writes three bytes and asks for a flush, a byte at a time: it is answered
twice. -/
theorem session_over_sockets_dribble :
    let w : Wire Unit :=
      client ((ask NBD_CMD_WRITE 2 3).toBytes ++ [7, 8, 9] ++ (ask NBD_CMD_FLUSH 0 0).toBytes)
    let a := (nbdSynchronousClientThreadCb cfg 9 5).run (wire fun u e => (others e, u)) ready w
    let b :=
      (nbdSynchronousClientThreadCb cfg 9 5).run (sockets dribble 4097 (fun _ => 0) fun u e =>
      (others e, u)) ready ⟨w.input, fun _ => 0, w.output, w.host⟩
    (b.out = a.out ∧ b.mem = a.mem ∧ b.trace = a.trace ∧ Under id a.env b.env) ∧
      a.env.output = simpleReply NBD_SUCCESS 1 ++ simpleReply NBD_SUCCESS 1 :=
  ⟨session_over_sockets (by decide) (connected_dribble _) (by decide) cfg 9 rfl ⟨rfl, rfl, rfl⟩, by
    decide +kernel⟩

end Sample

end LwNBD
