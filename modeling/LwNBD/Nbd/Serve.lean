import LwNBD.Nbd.Chunks

/-!
# Serving a request, step by step

What the pieces of the request loop do against any environment: one rule for each, by
which it is enough to show what its cases ask for, whatever the environment answers. The
properties of the transmission phase are proved from these rules, and never by unfolding
the pieces again.
-/

namespace LwNBD

open Resumption

variable {σ : Type} {env : Env Call Resp σ} {cfg : Config} {fuel : ℕ} {blocksize : UInt32}
variable {x : Vars} {q : NbdRequest} {s : Shared} {w : σ} {p : Plugin} {error : UInt32}

/-! ### The READ loop -/

section Read

variable {Q : Post Shared Call Resp σ (Ctl Vars (Ctl Vars ℤ))}

theorem wp_readChunk_done (hx : x.sendflag = 0) (hQ : Q (.ret (.done (.next x))) s w []) :
    wp env (readChunk cfg blocksize x) Q s w := by
  simpa [readChunk, hx] using hQ

theorem wp_readChunk (hp : s.ctx.p = some p) (hx : x.sendflag ≠ 0)
    (hok : ∀ r w₁, env w (.pread p s.ctx.handle (x.chunk blocksize).bufblksz x.offset) = (r, w₁) →
      r.ret = 0 →
      wp env (sendChunk cfg ((x.chunk blocksize).fill r.data)) (Q.after [⟨.pread .., r⟩]) s w₁)
    (hfail : ∀ r w₁, env w (.pread p s.ctx.handle (x.chunk blocksize).bufblksz x.offset) = (r, w₁) →
      r.ret ≠ 0 → Q (.ret ((x.chunk blocksize).fill r.data).tryAgain) s w₁ [⟨.pread .., r⟩]) :
    wp env (readChunk cfg blocksize x) Q s w := by
  rcases he : env w (.pread p s.ctx.handle (x.chunk blocksize).bufblksz x.offset) with ⟨r, w₁⟩
  simp only [readChunk, if_neg hx, wp_bind, wp_ctxNow, Post.seq_ret, wp_lwnbdPread env hp,
    Post.after_nil, chunk_offset, he]
  split_ifs with hr
  · exact hok r w₁ he hr
  · exact hfail r w₁ he hr

theorem wp_readChunk_none (hp : s.ctx.p = none) (hx : x.sendflag ≠ 0)
    (hQ : Q (.halt .undefined) s w []) : wp env (readChunk cfg blocksize x) Q s w := by
  simpa only [readChunk, if_neg hx, wp_bind, wp_ctxNow, Post.seq_ret, wp_lwnbdPread_none env hp,
    Post.after_nil, Post.seq_halt] using hQ

theorem wp_sendChunk
    (hok : ∀ k w₁, env w (.send s.ctx.sock .nbdBuffer (x.nbdBuffer.take x.byteread.toNat)
      x.sendflag) = (k, w₁) → asUInt32 k.1 = x.byteread →
      Q (.ret (.next (x.advance cfg))) s w₁ [⟨.send .., k⟩])
    (hcut : ∀ k w₁, env w (.send s.ctx.sock .nbdBuffer (x.nbdBuffer.take x.byteread.toNat)
      x.sendflag) = (k, w₁) → asUInt32 k.1 ≠ x.byteread →
      Q (.ret (.done (.next x))) s w₁ [⟨.send .., k⟩]) :
    wp env (sendChunk cfg x) Q s w := by
  rcases he : env w (.send s.ctx.sock .nbdBuffer (x.nbdBuffer.take x.byteread.toNat)
    x.sendflag) with ⟨k, w₁⟩
  simp only [sendChunk, wp_bind, wp_ctxNow, Post.seq_ret, wp_syncSend, Post.after_nil, he]
  split_ifs with hk
  · exact hcut k w₁ he hk
  · exact hok k w₁ he (not_not.mp hk)

end Read

/-! ### The WRITE loop -/

section Write

variable {Q : Post Shared Call Resp σ (Ctl (Vars × UInt32) (Vars × UInt32))}

theorem wp_writeChunk_done (hx : x.sendflag = 0) (hQ : Q (.ret (.done (x, error))) s w []) :
    wp env (writeChunk cfg blocksize (x, error)) Q s w := by
  simpa [writeChunk, hx] using hQ

theorem wp_writeChunk (hx : x.sendflag ≠ 0)
    (hok : ∀ r w₁, env w (.recv s.ctx.sock .nbdBuffer (x.chunk blocksize).byteread.toNat) =
      (r, w₁) → asUInt32 r.ret = (x.chunk blocksize).byteread →
      wp env (pwriteChunk cfg ((x.chunk blocksize).fill r.data) error)
      (Q.after [⟨.recv .., r⟩]) s w₁)
    (hcut : ∀ r w₁, env w (.recv s.ctx.sock .nbdBuffer (x.chunk blocksize).byteread.toNat) =
      (r, w₁) → asUInt32 r.ret ≠ (x.chunk blocksize).byteread →
      Q (.ret (.next (((x.chunk blocksize).fill r.data).stop, NBD_EOVERFLOW))) s
      w₁ [⟨.recv .., r⟩]) :
    wp env (writeChunk cfg blocksize (x, error)) Q s w := by
  rcases he : env w (.recv s.ctx.sock .nbdBuffer (x.chunk blocksize).byteread.toNat) with ⟨r, w₁⟩
  simp only [writeChunk, if_neg hx, wp_bind, wp_ctxNow, Post.seq_ret, wp_syncRecv, Post.after_nil,
    fill_byteread, he]
  split_ifs with hr
  · exact hok r w₁ he hr
  · exact hcut r w₁ he hr

theorem wp_pwriteChunk (hp : s.ctx.p = some p) (hw : p.pwrite = true)
    (hok : ∀ r w₁, env w (.pwrite p s.ctx.handle x.nbdBuffer x.bufblksz x.offset) = (r, w₁) →
      r = 0 →
      Q (.ret (.next (x.advance cfg, error))) s w₁ [⟨.pwrite .., r⟩])
    (hfail : ∀ r w₁, env w (.pwrite p s.ctx.handle x.nbdBuffer x.bufblksz x.offset) = (r, w₁) →
      r ≠ 0 →
      Q (.ret (.next (x.stop.advance cfg, NBD_EIO))) s w₁ [⟨.pwrite .., r⟩]) :
    wp env (pwriteChunk cfg x error) Q s w := by
  rcases he : env w (.pwrite p s.ctx.handle x.nbdBuffer x.bufblksz x.offset) with ⟨r, w₁⟩
  simp only [pwriteChunk, lwnbdPwrite, hp, hw, if_true, wp_bind, wp_ctxNow,
    Post.seq_ret, wp_perform, Post.after_nil, he]
  split_ifs with hr
  · exact hfail r w₁ he hr
  · exact hok r w₁ he (not_not.mp hr)

theorem wp_pwriteChunk_none (hp : ∀ p, s.ctx.p = some p → p.pwrite = false)
    (hQ : Q (.halt .undefined) s w []) : wp env (pwriteChunk cfg x error) Q s w := by
  simp only [pwriteChunk, lwnbdPwrite, wp_bind, wp_ctxNow, Post.seq_ret, Post.after_nil]
  cases h : s.ctx.p with
  | none => exact hQ
  | some p => simpa [hp p h] using hQ

end Write

/-! ### The requests -/

section Requests

variable {Q : Post Shared Call Resp σ (Ctl Vars ℤ)}

/-- A READ that is out of range: an error is sent, and the loop is entered as it is. -/
theorem wp_cmdRead_refused (hr : outOfRange s.ctx.exportsize q = true)
    (hQ : ∀ k w₁, env w (.send s.ctx.sock .reply (simpleReply NBD_EIO q.handle) x.sendflag) =
      (k, w₁) → wp env (Prog.loop fuel (readChunk cfg blocksize) x)
      (Q.after [⟨.send .., k⟩]) s w₁) :
    wp env (cmdRead cfg fuel blocksize x q) Q s w := by
  simp only [cmdRead, wp_bind, wp_ctxNow, Post.seq_ret, Post.after_nil, hr, if_true,
    pure_bind, wp_syncSend]
  exact hQ _ _ rfl

/-- A READ that is accepted: success is sent, and the loop serves it. -/
theorem wp_cmdRead_accepted (hr : outOfRange s.ctx.exportsize q = false) (hb : blocksize ≠ 0)
    (hQ : ∀ k w₁, env w (.send s.ctx.sock .reply (simpleReply NBD_SUCCESS q.handle) MSG_MORE) =
      (k, w₁) → wp env (Prog.loop fuel (readChunk cfg blocksize) (x.accept cfg blocksize q))
        (Q.after [⟨.send .., k⟩]) s w₁) :
    wp env (cmdRead cfg fuel blocksize x q) Q s w := by
  simp only [cmdRead, wp_bind, wp_ctxNow, Post.seq_ret, Post.after_nil, hr, Bool.false_eq_true,
    if_false, if_neg hb, pure_bind, wp_syncSend]
  exact hQ _ _ rfl

/-- A READ that is accepted without a block size divides by zero. -/
theorem wp_cmdRead_zero (hr : outOfRange s.ctx.exportsize q = false) (hb : blocksize = 0)
    (hQ : Q (.halt .undefined) s w []) : wp env (cmdRead cfg fuel blocksize x q) Q s w := by
  simpa [cmdRead, wp_bind, hr, hb] using hQ

/-- After the WRITE loop, a reply is sent with the error it leaves. -/
def Post.thenReply (env : Env Call Resp σ) (handle : UInt64)
    (Q : Post Shared Call Resp σ (Ctl Vars ℤ)) : Post Shared Call Resp σ (Vars × UInt32) :=
  Q.seq fun v h s w => ∀ k w₁, env w (.send s.ctx.sock .reply (simpleReply v.2 handle) 0) =
    (k, w₁) →
    Q (.ret (.next v.1)) s w₁ (h ++ [⟨.send .., k⟩])

@[simp] theorem Post.thenReply_ret {handle : UInt64} {v : Vars × UInt32} {h : List Ev} :
    Post.thenReply env handle Q (.ret v) s w h ↔
      ∀ k w₁, env w (.send s.ctx.sock .reply (simpleReply v.2 handle) 0) = (k, w₁) →
        Q (.ret (.next v.1)) s w₁ (h ++ [⟨.send .., k⟩]) := Iff.rfl

@[simp] theorem Post.thenReply_halt {handle : UInt64} {e : Halt} {h : List Ev} :
    Post.thenReply env handle Q (.halt e) s w h ↔ Q (.halt e) s w h := Iff.rfl

theorem Post.thenReply_after {handle : UInt64} {h : List Ev} :
    Post.thenReply env handle (Q.after h) = (Post.thenReply env handle Q).after h := by
  funext o s w h'
  cases o with
  | ret v => simp only [Post.thenReply_ret, Post.after_apply, List.append_assoc]
  | halt e => rfl

/-- The error a WRITE is refused with, success if it is accepted. -/
def writeError (ctx : ContextNbd) (q : NbdRequest) : UInt32 :=
  if hasReadOnly ctx.eflags then NBD_EPERM
  else if outOfRange ctx.exportsize q then NBD_ENOSPC
  else NBD_SUCCESS

theorem writeError_eq_success {ctx : ContextNbd} : writeError ctx q = NBD_SUCCESS ↔
    hasReadOnly ctx.eflags = false ∧ outOfRange ctx.exportsize q = false := by
  unfold writeError
  cases hasReadOnly ctx.eflags <;> cases outOfRange ctx.exportsize q <;> decide

theorem wp_reply {v : Vars × UInt32} {h : List Ev} {handle : UInt64}
    (hQ : Post.thenReply env handle Q (.ret v) s w h) :
    wp env (do
      let _ ← syncSend (← ctxNow).sock .reply (simpleReply v.2 handle) 0
      pure (.next v.1)) (Q.after h) s w := by
  simp only [wp_bind, wp_ctxNow, Post.seq_ret, Post.after_nil, wp_syncSend]
  exact hQ _ _ rfl

theorem wp_writeLoop {v : Vars × UInt32}
    (hQ : wp env (Prog.loop fuel (writeChunk cfg blocksize) v) (Post.thenReply env q.handle Q) s
      w) :
    wp env (do
      let (x, error) ← Prog.loop fuel (writeChunk cfg blocksize) v
      let _ ← syncSend (← ctxNow).sock .reply (simpleReply error q.handle) 0
      pure (.next x)) Q s w := by
  rw [wp_bind]
  refine wp_mono env ?_ hQ
  rintro (v' | e) s' w' h' hv
  · exact wp_reply hv
  · exact hv

/-- A WRITE that is refused: the loop is entered as it is. -/
theorem wp_cmdWrite_refused (hr : writeError s.ctx q ≠ NBD_SUCCESS)
    (hQ : wp env (Prog.loop fuel (writeChunk cfg blocksize) (x, writeError s.ctx q))
      (Post.thenReply env q.handle Q) s w) :
    wp env (cmdWrite cfg fuel blocksize x q) Q s w := by
  unfold writeError at hr hQ
  rw [cmdWrite, wp_bind, wp_ctxNow, Post.seq_ret, Post.after_nil]
  by_cases h : hasReadOnly s.ctx.eflags
  · simp only [if_pos h, pure_bind] at hQ ⊢
    exact wp_writeLoop hQ
  · by_cases h' : outOfRange s.ctx.exportsize q
    · simp only [if_neg h, if_pos h', pure_bind] at hQ ⊢
      exact wp_writeLoop hQ
    · simp [h, h'] at hr

/-- A WRITE that is accepted: the loop serves it. -/
theorem wp_cmdWrite_accepted (hr : writeError s.ctx q = NBD_SUCCESS) (hb : blocksize ≠ 0)
    (hQ : wp env (Prog.loop fuel (writeChunk cfg blocksize) (x.accept cfg blocksize q, NBD_SUCCESS))
      (Post.thenReply env q.handle Q) s w) :
    wp env (cmdWrite cfg fuel blocksize x q) Q s w := by
  obtain ⟨h, h'⟩ := writeError_eq_success.mp hr
  rw [cmdWrite, wp_bind, wp_ctxNow, Post.seq_ret, Post.after_nil]
  simp only [h, h', if_neg hb, pure_bind, Bool.false_eq_true, if_false]
  exact wp_writeLoop hQ

/-- A WRITE that is accepted without a block size divides by zero. -/
theorem wp_cmdWrite_zero (hr : writeError s.ctx q = NBD_SUCCESS) (hb : blocksize = 0)
    (hQ : Q (.halt .undefined) s w []) : wp env (cmdWrite cfg fuel blocksize x q) Q s w := by
  obtain ⟨h, h'⟩ := writeError_eq_success.mp hr
  simpa [cmdWrite, wp_bind, h, h', hb] using hQ

/-- A FLUSH: the plugin's `flush` is called, and its result is sent. -/
theorem wp_cmdFlush (hp : s.ctx.p = some p) (hf : p.flush = true)
    (hQ : ∀ r w₁ k w₂, env w (.flush p s.ctx.handle) = (r, w₁) →
      env w₁ (.send s.ctx.sock .reply
      (simpleReply (if r = 0 then NBD_SUCCESS else NBD_EIO) q.handle) 0) =
        (k, w₂) →
      Q (.ret (.next x)) s w₂ [⟨.flush .., r⟩, ⟨.send .., k⟩]) :
    wp env (cmdFlush x q) Q s w := by
  simp only [cmdFlush, lwnbdFlush, hp, hf, if_true, wp_bind, wp_ctxNow, Post.seq_ret, wp_perform,
    Post.after_nil, wp_syncSend]
  exact hQ _ _ _ _ rfl rfl

/-- A FLUSH of an export without `flush` goes wrong. -/
theorem wp_cmdFlush_none (hp : ∀ p, s.ctx.p = some p → p.flush = false)
    (hQ : Q (.halt .undefined) s w []) : wp env (cmdFlush x q) Q s w := by
  simp only [cmdFlush, lwnbdFlush, wp_bind, wp_ctxNow, Post.seq_ret, Post.after_nil]
  cases h : s.ctx.p with
  | none => exact hQ
  | some p => simpa [hp p h] using hQ

/-- Any other request is answered with `NBD_EINVAL`. -/
theorem wp_cmdDefault
    (hQ : ∀ k w₁, env w (.send s.ctx.sock .reply (simpleReply NBD_EINVAL q.handle) 0) = (k, w₁) →
      Q (.ret (.next x)) s w₁ [⟨.send .., k⟩]) :
    wp env (cmdDefault x q) Q s w := hQ _ _ rfl

theorem wp_cmdDisc (hQ : Q (.ret (.done 0)) { s with ctx := { s.ctx with state := .abort } } w []) :
    wp env cmdDisc Q s w := hQ

end Requests

end LwNBD
