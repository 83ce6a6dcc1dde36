import LwNBD.Nbd.Requests
import LwNBD.Resumption.Twins

/-!
# What reads disclose

`nbd_buffer` is a local variable of `transmission_phase`, and nothing is stored in it before the
first chunk. A READ sends the bytes of a chunk from there once `pread` returned `0`, whatever it
stored; a WRITE has its payload there, and `pwrite` takes what it takes. So it is up to the plugin
whether a client is sent what the buffer held before.

## The model

* `Content` — a content plugin, as far as `nbd_buffer` goes; `Content.Hosts` — the environment has
  it.
* `Content.Fills` — its `pread` stores what is sent, and its `pwrite` takes no more than was
  received.
* `OnlyBuffer` — two environments differ in what `nbd_buffer` holds at first, and in nothing else.
* `Fetched` — what is sent was stored by the call before; `Discreet` — so it is, and what is sent is
  the same from either buffer.

## What is proved

* `serveRequest_besides` — rounds from either buffer go on alike.
* `Content.Fills.discreet` — a plugin that fills the buffer discloses nothing.
-/

namespace LwNBD

open Resumption

/-! ### Content plugins -/

/-- A content plugin, as far as `nbd_buffer` goes. -/
structure Content where
  /-- The minimum that `block_size` stores. -/
  blockSize : UInt32
  /-- What `pread` of `count` blocks at `offset` may return and store. -/
  Reads (count : UInt32) (offset : UInt64) (r : Pread) : Prop
  /-- `pwrite` of `count` blocks at `offset` does the same with either buffer. -/
  SameWrite (count : UInt32) (offset : UInt64) (buf buf' : Bytes) : Prop

namespace Content

variable (c : Content) (cfg : Config)

/-- So many blocks fit in `nbd_buffer`. -/
def Within (count : UInt32) : Prop := count.toNat * c.blockSize.toNat ≤ cfg.bufferLen

/-- The environment has the plugin: what fits in `nbd_buffer` is read as the plugin does, and
written so. -/
structure Hosts {σ : Type} (env : Env Call Resp σ) : Prop where
  /-- `pread`. -/
  pread : ∀ w p handle count offset, c.Within cfg count →
    c.Reads count offset (env w (.pread p handle count offset)).1
  /-- `pwrite`. -/
  pwrite : ∀ w p handle buf buf' count offset, c.Within cfg count →
    c.SameWrite count offset buf buf' → ((env w (.pwrite p handle buf' count offset) : ℤ × σ)) =
    env w (.pwrite p handle buf count offset)

/-- The plugin fills the buffer. -/
structure Fills : Prop where
  /-- `pread` stores all blocks if it returns `0`. -/
  pread : ∀ count offset r, c.Within cfg count → c.Reads count offset r → r.ret = 0 →
    count.toNat * c.blockSize.toNat ≤ r.data.length
  /-- `pwrite` takes the blocks and nothing else. -/
  pwrite : ∀ count offset (buf buf' : Bytes), c.Within cfg count → buf.length = cfg.bufferLen →
    buf'.length = cfg.bufferLen →
    buf'.take (count.toNat * c.blockSize.toNat) = buf.take (count.toNat * c.blockSize.toNat) →
    c.SameWrite count offset buf buf'

end Content

/-! ### What is to be shown -/

/-- Two environments differ only in what `nbd_buffer` holds at first, when `transmission_phase` is
entered in `w`. -/
structure OnlyBuffer (cfg : Config) {σ : Type} (env env' : Env Call Resp σ) (w : σ) : Prop where
  /-- `request` holds the same. -/
  request : env' w (.uninit 28) = env w (.uninit 28)
  /-- Whatever `nbd_buffer` holds, they go on the same. -/
  nbdBuffer : (env' (env w (.uninit 28)).2 (.uninit cfg.bufferLen)).2 =
    (env (env w (.uninit 28)).2 (.uninit cfg.bufferLen)).2
  /-- Calls are answered the same. -/
  call : ∀ w e, (∀ n, e ≠ .uninit n) → env' w e = env w e

/-- The data that is sent. -/
def dataSent (h : List Ev) : List Bytes := h.filterMap fun
  | ⟨.send _ .nbdBuffer buf _, _⟩ => some buf
  | _ => none

@[simp] theorem dataSent_append (h h' : List Ev) : dataSent (h ++ h') = dataSent h ++ dataSent h' :=
  List.filterMap_append

/-- What is sent was stored by the call before, which is a `pread`. -/
def Fetched (h : List Ev) : Prop :=
  ∀ h₁ sock buf flags h₂, ∀ k : Sent buf.length, h = h₁ ++ ⟨.send sock .nbdBuffer buf flags, k⟩ ::
    h₂ → ∃ h₀ p handle count offset, ∃ r : Pread, h₁ = h₀ ++ [⟨.pread p handle count offset, r⟩] ∧
    buf <+: r.data

/-- Reads disclose nothing of what `nbd_buffer` held: the data that is sent is the same, whatever it
held, and was stored by the plugin. -/
def Discreet (cfg : Config) (c : Content) : Prop :=
  ∀ (σ : Type) (env env' : Env Call Resp σ) (s : Shared) (w : σ) (fuel : ℕ),
    s.ctx.minimumBlockSize = c.blockSize → c.Hosts cfg env → OnlyBuffer cfg env env' w →
    dataSent ((transmissionPhase cfg fuel).run env' s w).trace =
      dataSent ((transmissionPhase cfg fuel).run env s w).trace ∧
    Fetched ((transmissionPhase cfg fuel).run env s w).trace

/-! ### Side by side -/

section Twins

/-- Calls that are made alike: the same, or a `pwrite` that does the same. -/
inductive AsksLike (c : Content) (cfg : Config) : Call → Call → Prop where
  /-- The same call. -/
  | same {e : Call} : (∀ n, e ≠ .uninit n) →
    (∀ p handle count offset, e = .pread p handle count offset → c.Within cfg count) →
    AsksLike c cfg e e
  /-- A `pwrite`. -/
  | pwrite {p : Plugin} {handle : Handle} {buf buf' : Bytes} {count : UInt32} {offset : UInt64} :
    c.Within cfg count → c.SameWrite count offset buf buf' →
    AsksLike c cfg (.pwrite p handle buf count offset) (.pwrite p handle buf' count offset)

/-- Calls and answers that are alike. -/
inductive EventLike (c : Content) : Ev → Ev → Prop where
  /-- The same. -/
  | same {x : Ev} : (∀ p handle count offset r, x = ⟨.pread p handle count offset, r⟩ →
      c.Reads count offset r) →
    EventLike c x x
  /-- A `pwrite`. -/
  | pwrite {p : Plugin} {handle : Handle} {buf buf' : Bytes} {count : UInt32}
      {offset : UInt64} {r r' : ℤ} :
    r = r' → EventLike c ⟨.pwrite p handle buf count offset, r⟩ ⟨.pwrite p handle buf' count offset,
      r'⟩

variable {c : Content} {cfg : Config} {fuel : ℕ} {σ : Type} {env env' : Env Call Resp σ} {w : σ}

theorem EventLike.eq {e : Call} {r r' : Resp e} (h : EventLike c ⟨e, r⟩ ⟨e, r'⟩) : r' = r := by
  cases h with
  | same => rfl
  | pwrite hr => exact hr.symm

/-- Environments that have the plugin answer alike. -/
theorem OnlyBuffer.echoes (h : OnlyBuffer cfg env env' w) (hc : c.Hosts cfg env) :
    Echoes (AsksLike c cfg) (EventLike c) env env' where
  answer w e e' he := by
    cases he with
    | same hun hread =>
      rw [h.call w e hun]
      refine .same ?_
      intro p handle count offset r hx
      obtain ⟨rfl, hr⟩ := Sigma.mk.inj hx
      exact eq_of_heq hr ▸ hc.pread w p handle count offset (hread _ _ _ _ rfl)
    | @pwrite p handle buf buf' count offset hin hsame =>
      have hpair := hc.pwrite w p handle buf buf' count offset hin hsame
      rw [h.call w _ (by simp)]
      exact .pwrite (congrArg Prod.fst hpair).symm
  next w e e' he := by
    cases he with
    | same hun _ => rw [h.call w e hun]
    | pwrite hin hsame =>
      rw [h.call w _ (by simp)]
      exact congrArg Prod.snd (hc.pwrite w _ _ _ _ _ _ hin hsame)

/-- Two programs go on alike. -/
abbrev Besides (c : Content) (cfg : Config) {α β : Type} (ρ : α → β → Prop) :
    Server α → Server β → Prop :=
  Twins (AsksLike c cfg) (EventLike c) ρ

theorem besides_ctxNow : Besides c cfg Eq ctxNow ctxNow := Twins.read.bind_same fun _ => .pure rfl

theorem besides_perform (e : Call) (hun : ∀ n, e ≠ .uninit n)
    (hread : ∀ p handle count offset, e ≠ .pread p handle count offset) :
    Besides c cfg Eq (Prog.perform e) (Prog.perform e) :=
  .call (.same hun fun _ _ _ _ he => absurd he (hread _ _ _ _)) fun _ _ h => .ret h.eq.symm

theorem besides_note (n : Note) : Besides c cfg Eq (note n) (note n) :=
  besides_perform (.note n) (by simp) (by simp)

theorem besides_syncRecv (sock : ℤ) (obj : Obj) (len : ℕ) :
    Besides c cfg Eq (syncRecv sock obj len) (syncRecv sock obj len) :=
  besides_perform (.recv sock obj len) (by simp) (by simp)

theorem besides_syncSend (sock : ℤ) (obj : Obj) (buf : Bytes) (flags : ℤ) :
    Besides c cfg Eq (syncSend sock obj buf flags) (syncSend sock obj buf flags) :=
  besides_perform (.send sock obj buf flags) (by simp) (by simp)

theorem besides_lwnbdFlush (me : Context) : Besides c cfg Eq (lwnbdFlush me) (lwnbdFlush me) := by
  unfold lwnbdFlush
  cases me.p with
  | none => exact .halt
  | some p =>
    exact .ite (fun _ => besides_perform (.flush p me.handle) (by simp) (by simp)) fun _ => .halt

/-- The blocks are read, as the plugin reads them. -/
theorem besides_lwnbdPread (me : Context) {count : UInt32} (offset : UInt64)
    (hin : c.Within cfg count) :
    Besides c cfg (fun r r' => r' = r ∧ c.Reads count offset r) (lwnbdPread me count offset)
      (lwnbdPread me count offset) := by
  unfold lwnbdPread
  cases me.p with
  | none => exact .halt
  | some p =>
    refine .call (.same (by simp) ?_) fun r r' h => .ret ?_
    · rintro _ _ _ _ ⟨⟩
      exact hin
    · refine ⟨h.eq, ?_⟩
      cases h with
      | same hr => exact hr _ _ _ _ _ rfl

/-- The blocks are written, which does the same with either buffer. -/
theorem besides_lwnbdPwrite (me : Context) {buf buf' : Bytes} {count : UInt32} {offset : UInt64}
    (hin : c.Within cfg count) (hsame : c.SameWrite count offset buf buf') :
    Besides c cfg Eq (lwnbdPwrite me buf count offset) (lwnbdPwrite me buf' count offset) := by
  unfold lwnbdPwrite
  cases me.p with
  | none => exact .halt
  | some p =>
    refine .ite (fun _ => .call (.pwrite hin hsame) fun r r' h => .ret ?_) fun _ => .halt
    cases h with
    | same => rfl
    | pwrite hr => exact hr

/-! ### Rounds from either buffer -/

/-- The variables, with this in `nbd_buffer`. -/
def Vars.withBuffer (x : Vars) (b : Bytes) : Vars := { x with nbdBuffer := b }

/-- Variables that are in order, and differ in `nbd_buffer` at most. -/
def Vars.Beside (cfg : Config) (blocksize : UInt32) (x x' : Vars) : Prop :=
  x.Ok cfg blocksize ∧ ∃ b, b.length = cfg.bufferLen ∧ x' = x.withBuffer b

/-- The same, with something that is the same. -/
def BesideWith {α : Type} (cfg : Config) (blocksize : UInt32) (v v' : Vars × α) : Prop :=
  v.1.Ok cfg blocksize ∧ ∃ b, b.length = cfg.bufferLen ∧ v' = (v.1.withBuffer b, v.2)

variable {x : Vars} {q : NbdRequest} {b : Bytes}

@[simp] theorem withBuffer_nbdBuffer : (x.withBuffer b).nbdBuffer = b := rfl

theorem chunk_withBuffer (blocksize : UInt32) :
    (x.withBuffer b).chunk blocksize = (x.chunk blocksize).withBuffer b := by
  unfold Vars.chunk Vars.markLast Vars.shorten Vars.stop Vars.withBuffer
  dsimp only
  split_ifs <;> rfl

theorem Vars.Ok.beside {blocksize : UInt32} (hx : x.Ok cfg blocksize)
    (hb : b.length = cfg.bufferLen) : x.Beside cfg blocksize (x.withBuffer b) := ⟨hx, b, hb, rfl⟩

theorem Vars.Ok.besideWith {α : Type} {blocksize : UInt32} (hx : x.Ok cfg blocksize)
    (hb : b.length = cfg.bufferLen) (a : α) : BesideWith cfg blocksize (x, a) (x.withBuffer b, a) :=
  ⟨hx, b, hb, rfl⟩

theorem Vars.Ok.within (hx : x.Ok cfg c.blockSize) : c.Within cfg x.bufblksz := hx.fits

/-- A chunk that was stored whole is the same in either buffer. -/
theorem Vars.Ok.take_store_eq {blocksize : UInt32} {d : Bytes} (hx : x.Ok cfg blocksize)
    (hb : b.length = cfg.bufferLen) (hall : x.byteread.toNat ≤ d.length) :
    (store b d).take x.byteread.toNat = (store x.nbdBuffer d).take x.byteread.toNat := by
  have hlen : x.byteread.toNat ≤ b.length := by
    rw [hb]
    exact hx.byteread_le
  rw [take_store_of_le hlen hall, take_store_of_le hx.byteread_le_length hall]

theorem sendChunk_besides {blocksize : UInt32} (hx : x.Ok cfg blocksize)
    (hb : b.length = cfg.bufferLen)
    (htake : b.take x.byteread.toNat = x.nbdBuffer.take x.byteread.toNat) :
    Besides c cfg (Ctl.Rel (Vars.Beside cfg blocksize) (Ctl.Rel (Vars.Beside cfg blocksize) Eq))
    (sendChunk cfg x)
      (sendChunk cfg (x.withBuffer b)) := by
  unfold sendChunk
  refine besides_ctxNow.bind_same fun ctx => ?_
  have hsend : (x.withBuffer b).nbdBuffer.take (x.withBuffer b).byteread.toNat =
      x.nbdBuffer.take x.byteread.toNat :=
    htake
  rw [hsend]
  refine (besides_syncSend _ _ _ _).bind_same fun r => .ite (fun _ => ?_) fun _ => ?_
  · exact .pure (hx.beside hb)
  · exact .pure (hx.advance.beside hb)

theorem readChunk_besides (hc : c.Fills cfg) (hx : x.Ok cfg c.blockSize)
    (hb : b.length = cfg.bufferLen) :
    Besides c cfg (Ctl.Rel (Vars.Beside cfg c.blockSize) (Ctl.Rel (Vars.Beside cfg c.blockSize) Eq))
      (readChunk cfg c.blockSize x) (readChunk cfg c.blockSize (x.withBuffer b)) := by
  unfold readChunk
  refine .ite (fun _ => .pure (hx.beside hb)) fun _ => ?_
  rw [chunk_withBuffer]
  refine besides_ctxNow.bind_same fun ctx => (besides_lwnbdPread _ _ hx.chunk.within).bind ?_
  rintro _ r ⟨rfl, hr⟩
  have hz := hx.chunk.fill (d := r.data)
  have hlen : (store b r.data).length = cfg.bufferLen := by rw [length_store, hb]
  refine .ite (fun h0 => sendChunk_besides hz hlen ?_) fun _ => .pure ?_
  · have hall := hc.pread _ _ _ hx.chunk.within hr h0
    rw [← hx.chunk.bytes] at hall
    exact hx.chunk.take_store_eq hb hall
  · unfold Vars.tryAgain
    change Ctl.Rel _ _ (if ((x.chunk c.blockSize).fill r.data).retry ≠ 0 then _ else _)
      (if ((x.chunk c.blockSize).fill r.data).retry ≠ 0 then _ else _)
    split_ifs
    · exact hz.again.beside hlen
    · exact Eq.refl (-1 : ℤ)

theorem pwriteChunk_besides {error : UInt32} (hc : c.Fills cfg) (hx : x.Ok cfg c.blockSize)
    (hb : b.length = cfg.bufferLen)
    (htake : b.take x.byteread.toNat = x.nbdBuffer.take x.byteread.toNat) :
    Besides c cfg (Ctl.Rel (BesideWith cfg c.blockSize) (BesideWith cfg c.blockSize))
      (pwriteChunk cfg x error) (pwriteChunk cfg (x.withBuffer b) error) := by
  unfold pwriteChunk
  rw [hx.bytes] at htake
  refine besides_ctxNow.bind_same fun ctx =>
    (besides_lwnbdPwrite _ hx.within (hc.pwrite _ _ _ _ hx.within hx.buffer hb htake)).bind_same
      fun r =>
      .ite (fun _ => .pure ?_) fun _ => .pure ?_
  · exact hx.stop.advance.besideWith hb _
  · exact hx.advance.besideWith hb _

theorem writeChunk_besides {error : UInt32} (hc : c.Fills cfg) (hx : x.Ok cfg c.blockSize)
    (hb : b.length = cfg.bufferLen) :
    Besides c cfg (Ctl.Rel (BesideWith cfg c.blockSize) (BesideWith cfg c.blockSize))
      (writeChunk cfg c.blockSize (x, error))
      (writeChunk cfg c.blockSize (x.withBuffer b, error)) := by
  unfold writeChunk
  refine .ite (fun _ => .pure (hx.besideWith hb _)) fun _ => ?_
  dsimp only
  rw [chunk_withBuffer]
  refine besides_ctxNow.bind_same fun ctx => (besides_syncRecv _ _ _).bind_same fun r => ?_
  have hz := hx.chunk.fill (d := r.data)
  have hlen : (store b r.data).length = cfg.bufferLen := by rw [length_store, hb]
  refine .ite (fun hok => pwriteChunk_besides hc hz hlen ?_) fun _ =>
    .pure (hz.stop.besideWith hlen _)
  have hret := (hx.chunk.received_iff r).mp hok
  have hall := r.ret_le
  rw [hret] at hall
  exact hx.chunk.take_store_eq hb (Int.ofNat_le.mp hall)

theorem cmdRead_besides (hc : c.Fills cfg) (fuel : ℕ) (hx : x.Ok cfg c.blockSize)
    (hb : b.length = cfg.bufferLen) :
    Besides c cfg (Ctl.Rel (Vars.Beside cfg c.blockSize) Eq) (cmdRead cfg fuel c.blockSize x q)
      (cmdRead cfg fuel c.blockSize (x.withBuffer b) q) := by
  have hloop {x x' : Vars} (h : x.Beside cfg c.blockSize x') :
      Besides c cfg (Ctl.Rel (Vars.Beside cfg c.blockSize) Eq)
      (Prog.loop fuel (readChunk cfg c.blockSize) x)
      (Prog.loop fuel (readChunk cfg c.blockSize) x') := by
    refine Twins.loop (Vars.Beside cfg c.blockSize) ?_ fuel h
    rintro y _ ⟨hy, b', hb', rfl⟩
    exact readChunk_besides hc hy hb'
  have hreply (error : UInt32) {x x' : Vars} (h : x.Beside cfg c.blockSize x') :
      Besides c cfg (Ctl.Rel (Vars.Beside cfg c.blockSize) Eq)
        (do let _ ← syncSend (← ctxNow).sock .reply (simpleReply error q.handle) x.sendflag
            Prog.loop fuel (readChunk cfg c.blockSize) x)
        (do let _ ← syncSend (← ctxNow).sock .reply (simpleReply error q.handle) x'.sendflag
            Prog.loop fuel (readChunk cfg c.blockSize) x') := by
    refine besides_ctxNow.bind_same fun ctx => ?_
    have hflag : x'.sendflag = x.sendflag := by
      obtain ⟨-, b', -, rfl⟩ := h
      rfl
    rw [hflag]
    exact (besides_syncSend _ _ _ _).bind_same fun _ => hloop h
  refine besides_ctxNow.bind_same fun ctx => .ite (fun _ => ?_) fun _ =>
    .ite (fun _ => .halt) fun _ => ?_
  · exact hreply NBD_EIO (hx.beside hb)
  · exact hreply NBD_SUCCESS (hx.accept.beside hb)

theorem cmdWrite_besides (hc : c.Fills cfg) (fuel : ℕ) (hx : x.Ok cfg c.blockSize)
    (hb : b.length = cfg.bufferLen) :
    Besides c cfg (Ctl.Rel (Vars.Beside cfg c.blockSize) Eq) (cmdWrite cfg fuel c.blockSize x q)
      (cmdWrite cfg fuel c.blockSize (x.withBuffer b) q) := by
  have hserve {v v' : Vars × UInt32} (h : BesideWith cfg c.blockSize v v') :
      Besides c cfg (Ctl.Rel (Vars.Beside cfg c.blockSize) Eq)
        (do let v ← Prog.loop fuel (writeChunk cfg c.blockSize) v
            let _ ← syncSend (← ctxNow).sock .reply (simpleReply v.2 q.handle) 0
            pure (.next v.1) : Server (Ctl Vars ℤ))
        (do let v ← Prog.loop fuel (writeChunk cfg c.blockSize) v'
            let _ ← syncSend (← ctxNow).sock .reply (simpleReply v.2 q.handle) 0
            pure (.next v.1)) := by
    refine Twins.bind (ρ := BesideWith cfg c.blockSize)
      (Twins.loop (BesideWith cfg c.blockSize) ?_ fuel h) ?_
    · rintro ⟨y, error⟩ _ ⟨hy, b', hb', rfl⟩
      exact writeChunk_besides hc hy hb'
    · rintro ⟨y, error⟩ _ ⟨hy, b', hb', rfl⟩
      exact besides_ctxNow.bind_same fun ctx => (besides_syncSend _ _ _ _).bind_same fun _ =>
        .pure (hy.beside hb')
  refine besides_ctxNow.bind_same fun ctx => .ite (fun _ => ?_) fun _ => .ite (fun _ => ?_) fun _ =>
    .ite (fun _ => .halt) fun _ => ?_
  · exact hserve (hx.besideWith hb NBD_EPERM)
  · exact hserve (hx.besideWith hb NBD_ENOSPC)
  · exact hserve (hx.accept.besideWith hb NBD_SUCCESS)

theorem handleRequest_besides (hc : c.Fills cfg) (fuel : ℕ) (hx : x.Ok cfg c.blockSize)
    (hb : b.length = cfg.bufferLen) :
    Besides c cfg (Ctl.Rel (Vars.Beside cfg c.blockSize) Eq)
    (handleRequest cfg fuel c.blockSize x q)
      (handleRequest cfg fuel c.blockSize (x.withBuffer b) q) := by
  unfold handleRequest
  refine (besides_note _).bind_same fun _ => .ite (fun _ => cmdRead_besides hc fuel hx hb) fun _ =>
    .ite (fun _ => cmdWrite_besides hc fuel hx hb) fun _ => .ite (fun _ => ?_) fun _ =>
      .ite (fun _ => ?_) fun _ => ?_
  · exact (Twins.modify _).bind_same fun _ => .pure rfl
  · exact besides_ctxNow.bind_same fun ctx => (besides_lwnbdFlush _).bind_same fun r =>
      besides_ctxNow.bind_same fun ctx => (besides_syncSend _ _ _ _).bind_same fun _ =>
        .pure (hx.beside hb)
  · exact besides_ctxNow.bind_same fun ctx => (besides_syncSend _ _ _ _).bind_same fun _ =>
      .pure (hx.beside hb)

/-- Rounds from either buffer go on alike. -/
theorem serveRequest_besides (hc : c.Fills cfg) (fuel : ℕ) (hx : x.Ok cfg c.blockSize)
    (hb : b.length = cfg.bufferLen) :
    Besides c cfg (Ctl.Rel (Vars.Beside cfg c.blockSize) Eq) (serveRequest cfg fuel c.blockSize x)
      (serveRequest cfg fuel c.blockSize (x.withBuffer b)) := by
  unfold serveRequest readRequest
  refine Twins.bind (ρ := Option.Rel (BesideWith cfg c.blockSize)) ?_ ?_
  · refine besides_ctxNow.bind_same fun ctx => (besides_syncRecv _ _ _).bind_same fun r => ?_
    refine .ite (fun _ => .pure .none) fun _ => .ite (fun _ => .pure .none) fun _ =>
      .pure (.some ?_)
    have hreq : (NbdRequest.hostOrder (store x.request r.data)).length = 28 :=
      NbdRequest.length_hostOrder (by rw [length_store, hx.request])
    exact ⟨⟨⟨hx.bytes, hx.fits, hx.buffer⟩, hx.retry_le, hreq⟩, b, hb, rfl⟩
  · intro o o' ho
    cases ho with
    | none => exact .pure rfl
    | @some v v' hv =>
      obtain ⟨hy, b', hb', rfl⟩ := hv
      exact handleRequest_besides hc fuel hy hb'

theorem dataSent_of_like {t t' : List Ev} (h : List.Forall₂ (EventLike c) t t') :
    dataSent t' = dataSent t := by
  induction h with
  | nil => rfl
  | @cons x x' t t' hx _ ih =>
    have hhead : dataSent [x'] = dataSent [x] := by
      cases hx with
      | same => rfl
      | pwrite => rfl
    rw [← List.singleton_append, dataSent_append, ← List.singleton_append (l := t),
      dataSent_append, hhead, ih]

end Twins

/-! ### What was stored before it is sent -/

section Fetched

variable {h h' : List Ev}

theorem fetched_of_unsent
    (hh : ∀ e ∈ calls h, ∀ sock buf flags, e ≠ .send sock .nbdBuffer buf flags) : Fetched h := by
  rintro h₁ sock buf flags h₂ k rfl
  exact absurd rfl (hh (.send sock .nbdBuffer buf flags) (by simp) sock buf flags)

theorem Fetched.append (hh : Fetched h) (hh' : Fetched h') : Fetched (h ++ h') := by
  intro h₁ sock buf flags h₂ k heq
  rcases List.append_eq_append_iff.mp heq with ⟨t, rfl, ht⟩ | ⟨t, rfl, ht⟩
  · obtain ⟨h₀, p, handle, count, offset, r, rfl, hr⟩ := hh' t sock buf flags h₂ k ht
    exact ⟨h ++ h₀, p, handle, count, offset, r, by rw [List.append_assoc], hr⟩
  · cases t with
    | nil =>
      obtain ⟨h₀, p, handle, count, offset, r, hnil, -⟩ := hh' [] sock buf flags h₂ k ht.symm
      exact absurd hnil (by simp)
    | cons e t =>
      obtain ⟨rfl, -⟩ := List.cons.inj ht
      exact hh h₁ sock buf flags t k rfl

theorem Fetched.unsent (hh : Fetched h)
    (hh' : ∀ e ∈ calls h', ∀ sock buf flags, e ≠ .send sock .nbdBuffer buf flags) :
    Fetched (h ++ h') :=
  hh.append (fetched_of_unsent hh')

theorem fetched_sent {p : Plugin} {handle : Handle} {count : UInt32} {offset : UInt64}
    {r : Pread} {sock : ℤ} {buf : Bytes} {flags : ℤ} {k : Sent buf.length} (hr : buf <+: r.data) :
    Fetched [⟨.pread p handle count offset, r⟩, ⟨.send sock .nbdBuffer buf flags, k⟩] := by
  intro h₁ sock' buf' flags' h₂ k' heq
  rcases h₁ with _ | ⟨e, _ | ⟨e', t⟩⟩
  · cases heq
  · cases heq
    exact ⟨[], p, handle, count, offset, r, rfl, hr⟩
  · simp at heq

variable {c : Content} {cfg : Config} {fuel : ℕ} {σ : Type} {env : Env Call Resp σ} {s : Shared}
  {w : σ} {a : ReqHead σ}

theorem Content.Fills.sends_stored (hc : c.Fills cfg) (hhost : c.Hosts cfg env) {x : Vars}
    {w w₁ : σ} {p : Plugin} {handle : Handle} {r : Pread} (hx : x.Ok cfg c.blockSize)
    (hr : env w (.pread p handle (x.chunk c.blockSize).bufblksz x.offset) = (r, w₁))
    (h0 : r.ret = 0) :
    let z := (x.chunk c.blockSize).fill r.data
    z.nbdBuffer.take z.byteread.toNat <+: r.data := by
  have hread := hhost.pread w p handle (x.chunk c.blockSize).bufblksz x.offset hx.chunk.within
  rw [hr] at hread
  have hall := hc.pread _ _ _ hx.chunk.within hread h0
  rw [← hx.chunk.bytes] at hall
  intro z
  change (store (x.chunk c.blockSize).nbdBuffer r.data).take
    (x.chunk c.blockSize).byteread.toNat <+: r.data
  rw [take_store_of_le hx.chunk.byteread_le_length hall]
  exact List.take_prefix _ _

/-- What a round sends was stored. -/
theorem round_fetched (hc : c.Fills cfg) (hhost : c.Hosts cfg env) (ha : a.x.Ok cfg c.blockSize) :
    wp env (serveRequest cfg fuel c.blockSize a.x) (fun _ _ _ h => Fetched h) a.mem a.env := by
  cases hq : requestAt env a with
  | none => exact wp_round_none hq (fetched_of_unsent (by simp))
  | some q =>
    have hhead : Fetched (headerAt env a q) := fetched_of_unsent (by simp [headerAt])
    have H : RoundRules env cfg c.blockSize a q (fun _ _ _ h => Fetched h) (fun _ _ h => Fetched h)
        (fun _ _ _ h => Fetched h) :=
      { readLoop := fun _ =>
          { leave := fun _ hh _ => hh
            null := fun _ hh _ _ => hh
            sent :=
              fun hx hh _ _ hr h0 _ _ => hh.append (fetched_sent (hc.sends_stored hhost hx hr h0))
            cut :=
              fun hx hh _ _ hr h0 _ _ _ => hh.append (fetched_sent (hc.sends_stored hhost hx hr h0))
            again := fun _ hh _ _ _ _ _ => hh.unsent (by simp)
            fail := fun _ hh _ _ _ _ _ => hh.unsent (by simp) }
        readRefused := fun _ _ _ _ _ => hhead.unsent (by simp)
        readAccepted := fun _ _ _ _ _ _ => hhead.unsent (by simp)
        readZero := fun _ _ _ => hhead
        writeLoop := fun _ =>
          { leave := fun _ hh _ _ _ _ => hh.unsent (by simp)
            null := fun _ hh _ _ _ _ => hh.unsent (by simp)
            written := fun _ hh _ _ _ _ _ _ _ => hh.unsent (by simp)
            failed := fun _ hh _ _ _ _ _ _ _ => hh.unsent (by simp)
            cut := fun _ hh _ _ _ => hh.unsent (by simp) }
        writeRefused := fun _ _ => hhead
        writeAccepted := fun _ _ _ => hhead
        writeZero := fun _ _ _ => hhead
        disc := fun _ => hhead
        flush := fun _ _ _ _ _ _ _ _ _ _ => hhead.unsent (by simp)
        flushNull := fun _ _ => hhead
        other := fun _ _ _ _ _ _ _ => hhead.unsent (by simp) }
    exact H.round hq (fun _ _ _ _ hh => hh) (fun _ _ _ _ _ hh => hh) ha

/-- What a run sends was stored. -/
theorem transmissionPhase_fetched (hc : c.Fills cfg) (hhost : c.Hosts cfg env)
    (hs : s.ctx.minimumBlockSize = c.blockSize) :
    wp env (transmissionPhase cfg fuel) (fun _ _ _ h => Fetched h) s w := by
  refine wp_transmissionPhase ?_
  refine wp_loop env (Q := fun _ _ _ h => Fetched h) (fun x _ _ h => x.Ok cfg c.blockSize ∧
    Fetched h) (fun _ _ _ _ hI => hI.2) ?_ fuel _ s _ _ ⟨firstHead_ok, fetched_of_unsent (by simp)⟩
  rintro x s' w' h ⟨hx, hh⟩
  have hround : wp env (serveRequest cfg fuel c.blockSize x) (fun o s₁ _ t =>
      Fetched t ∧ ∀ x', o = .ret (.next x') → s₁ = s' ∧ x'.Ok cfg c.blockSize) s' w' :=
    wp_and (round_fetched (a := ⟨x, s', w'⟩) hc hhost hx) (round_frame (c := ⟨x, s', w'⟩) hx)
  rw [serveIn, hs]
  refine wp_mono env ?_ hround
  rintro ((x' | r) | e) s'' w'' h' ⟨hh', hframe⟩
  · exact ⟨(hframe x' rfl).2, hh.append hh'⟩
  · exact hh.append hh'
  · exact hh.append hh'

end Fetched

/-! ### Nothing is disclosed -/

section Discreet

variable {c : Content} {cfg : Config} {fuel : ℕ} {σ : Type} {env env' : Env Call Resp σ}
  {s : Shared} {w : σ}

/-- Runs from either buffer send the same data. -/
theorem OnlyBuffer.dataSent_eq (hc : c.Fills cfg) (hhost : c.Hosts cfg env)
    (h : OnlyBuffer cfg env env' w) (hs : s.ctx.minimumBlockSize = c.blockSize) :
    dataSent ((transmissionPhase cfg fuel).run env' s w).trace =
      dataSent ((transmissionPhase cfg fuel).run env s w).trace := by
  have hx : (firstHead env cfg s w).x.Ok cfg c.blockSize := firstHead_ok
  have hfirst : (firstHead env' cfg s w).x = (firstHead env cfg s w).x.withBuffer
      (env' (env w (.uninit 28)).2 (.uninit cfg.bufferLen)).1.1 := by
    simp only [firstHead, h.request]
    rfl
  have henv : (firstHead env' cfg s w).env = (firstHead env cfg s w).env := by
    simp only [firstHead, h.request]
    exact h.nbdBuffer
  have htwins :
      Besides c cfg Eq (Prog.loop fuel (serveRequest cfg fuel c.blockSize)
      (firstHead env cfg s w).x)
      (Prog.loop fuel (serveRequest cfg fuel c.blockSize) (firstHead env' cfg s w).x) := by
    refine Twins.loop (Vars.Beside cfg c.blockSize) ?_ fuel ?_
    · rintro x _ ⟨hx', b, hb, rfl⟩
      exact serveRequest_besides hc fuel hx' hb
    · rw [hfirst]
      exact hx.beside (env' (env w (.uninit 28)).2 (.uninit cfg.bufferLen)).1.2
  have hdata := dataSent_of_like (htwins.run (h.echoes hhost) s (firstHead env cfg s w).env).2.2.2
  rw [run_transmissionPhase, run_transmissionPhase]
  dsimp only
  rw [serveIn, hs, henv]
  exact hdata

/-- A plugin that fills the buffer discloses nothing of what it held. -/
theorem Content.Fills.discreet (hc : c.Fills cfg) : Discreet cfg c := fun _ _ _ _ _ _ hs hhost h =>
  ⟨h.dataSent_eq hc hhost hs, transmissionPhase_fetched hc hhost hs⟩

end Discreet

end LwNBD
