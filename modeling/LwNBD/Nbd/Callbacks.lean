import LwNBD.Nbd.Opens
import LwNBD.Nbd.Refused

/-!
# The callbacks of a plugin

A plugin need not provide every callback: `lwnbd_plugin_init` asks for `pread` only. What becomes of
the requests that need one it does not provide. `nbdify_context` announces an export without
`pwrite` read-only, and a WRITE of such an export is refused; it announces whether there is a
`flush`, but a FLUSH is not refused where there is none; and nothing asks whether there is a
`get_size`.

## The model

* `Call.Provided` — a call is made to a callback that the plugin provides. A call to one that it
  does not provide goes through `NULL`, and is `.undefined`.
* `Needs` — a request needs a callback that is not provided.
* `Handled` — what is expected of a round; `LooksUpWell` — what is expected of `lwnbd_get_context`.
* `Guarded` — when a round does it.

## What is proved

* `run_nbdifyContext` — what `nbdify_context` leaves.
* `round_provided` — a round calls what is provided, and goes wrong by a division by zero or where a
  callback is needed that is not provided.
* `handled_iff`, `looksUpWell_iff` — when the expectations are met.
* `callbacks_provided` — both, for every export, URI and run.
-/

namespace LwNBD

open Resumption

/-! ### What is to be shown -/

/-- A call is made to a callback that the plugin provides. -/
def Call.Provided : Call → Prop
  | .pwrite p .. => p.pwrite = true
  | .flush p _ => p.flush = true
  | .query p .. => p.query = true
  | .getSize p _ => p.getSize = true
  | .blockSize p _ => p.blockSize = true
  | _ => True

/-- A request needs a callback that the plugin does not provide. -/
def Needs (p : Plugin) (q : NbdRequest) : Prop :=
  q.type = NBD_CMD_WRITE ∧ p.pwrite = false ∨ q.type = NBD_CMD_FLUSH ∧ p.flush = false

/-- A request is handled, of an export of the plugin `p`. -/
structure Handled {σ : Type} (p : Plugin) (ctx : ContextNbd) (q : NbdRequest)
    (x : Result Shared Call Resp σ (Ctl Vars ℤ)) : Prop where
  /-- The callbacks that are called are provided. -/
  provided : ∀ e ∈ calls x.trace, e.Provided
  /-- Nothing goes wrong, but for a division by the block size. -/
  defined : x.out = .halt .undefined → ctx.minimumBlockSize = 0 ∧ ¬ Needs p q
  /-- A request that needs what is not provided is answered with an error. -/
  answered : Needs p q → ∃ error, error ≠ NBD_SUCCESS ∧ ∃ flags k,
    (⟨.send ctx.sock .reply (simpleReply error q.handle) flags, k⟩ : Ev) ∈ x.trace

/-- A name is looked up, whatever the environment does: the callbacks that are called are provided,
and `lwnbd_get_context` returns a context or `NULL`. -/
def LooksUpWell (s : Shared) (uri : Bytes) : Prop :=
  ∀ (σ : Type) (env : Env Call Resp σ) (w : σ), let x := (lwnbdGetContext uri).run env s w
    (∀ e ∈ calls x.trace, e.Provided) ∧ ∃ e, x.out = .ret e

variable {σ : Type} {env : Env Call Resp σ} {cfg : Config} {fuel : ℕ} {s : Shared}
  {w : σ} {p : Plugin}

/-! ### Exports -/

/-- What `nbdify_context` leaves. -/
theorem run_nbdifyContext (env : Env Call Resp σ) (w : σ) (hp : s.ctx.p = some p) :
    let x := nbdifyContext.run env s w
    x.out = .ret () ∧ x.mem.ctx.p = some p ∧ x.mem.ctx.eflags = nbdifyEflags p ∧ x.mem.reg = s.reg ∧
      ∀ e ∈ calls x.trace, e.Provided := by
  cases hb : p.blockSize with
  | false => simp [nbdifyContext, ctxNow, Prog.run_bind, Result.andThen, hp, hb]
  | true => simp [nbdifyContext, ctxNow, Prog.run_bind, Result.andThen, hp, hb, Call.Provided]

/-- An export is announced read-only where `pwrite` is not provided. -/
theorem hasReadOnly_nbdifyEflags : hasReadOnly (nbdifyEflags p) = !p.pwrite := by
  unfold nbdifyEflags
  cases p.pwrite <;> cases p.flush <;> decide

/-! ### Looking up a name -/

theorem lwnbdGetContext_provided (uri : Bytes) :
    wp env (lwnbdGetContext uri) (fun _ _ _ h => ∀ e ∈ calls h, e.Provided) s w := by
  refine wp_lwnbdGetContext (fun w₁ => ?_) (fun w₁ => ?_) (fun p handle params n r w₁ hq _ => ?_)
    (fun i p w₁ h hp hh => ?_)
  · simp [Call.Provided]
  · simp [Call.Provided]
  · simp [Call.Provided, hq]
  · have hqueries : ∀ e ∈ calls h, e.Provided := by
      intro e he
      obtain ⟨hq, handle, params, n, rfl⟩ := hh e he
      exact hq
    refine wp_updateSize hp (fun r w₂ hg _ => ?_) (fun _ => ?_)
    · simpa [Call.Provided, hg, or_imp, forall_and] using hqueries
    · simpa [Call.Provided] using hqueries

/-- A name is looked up well if and only if what it finds has a plugin that provides `get_size`. -/
theorem looksUpWell_iff {uri : Bytes} : LooksUpWell s uri ↔
    s.reg.Served (yuarelParse uri).path := by
  constructor
  · intro h
    by_contra hlost
    obtain ⟨-, e, he⟩ := h Unit quiet ()
    obtain ⟨params, nbParams, w', hout, -⟩ := run_lwnbdGetContext quiet s () uri
    rw [hout, findContext_undefined quiet hlost fun _ _ _ _ _ => rfl] at he
    cases he
  · intro h σ env w
    obtain ⟨params, nbParams, w', hout, -⟩ := run_lwnbdGetContext env s w uri
    refine ⟨lwnbdGetContext_provided uri, ?_⟩
    rw [hout]
    exact findContext_ret env h

/-! ### Handling a request -/

variable {c : ReqHead σ} {q : NbdRequest}

/-- A round calls what is provided, and goes wrong where a callback is needed that is not, or by a
division by the block size. -/
theorem round_provided (hc : c.x.Ok cfg c.mem.ctx.minimumBlockSize) (hp : c.mem.ctx.p = some p)
    (hq : requestAt env c = some q) :
    wp env (serveIn cfg fuel c.mem c.x) (fun o _ _ h => (∀ e ∈ calls h, e.Provided) ∧
      (o = .halt .undefined → c.mem.ctx.minimumBlockSize = 0 ∨ Needs p q)) c.mem c.env := by
  have hhead : ∀ e ∈ calls (headerAt env c q), e.Provided := by simp [headerAt, Call.Provided]
  have H : RoundRules env cfg c.mem.ctx.minimumBlockSize c q
      (fun o _ _ h => (∀ e ∈ calls h, e.Provided) ∧
        (o = .halt .undefined → c.mem.ctx.minimumBlockSize = 0 ∨ Needs p q))
      (fun _ _ h => ∀ e ∈ calls h, e.Provided) (fun _ _ _ h => ∀ e ∈ calls h, e.Provided) :=
    { readLoop := fun _ =>
        { leave := fun _ hh _ => ⟨hh, by simp⟩
          null := fun _ _ _ hnull => absurd (hp.symm.trans hnull) (by simp)
          sent := fun _ hh _ _ _ _ _ _ => calls_forall_append hh (by simp [Call.Provided])
          cut :=
            fun _ hh _ _ _ _ _ _ _ => ⟨calls_forall_append hh (by simp [Call.Provided]), by simp⟩
          again := fun _ hh _ _ _ _ _ => calls_forall_append hh (by simp [Call.Provided])
          fail :=
            fun _ hh _ _ _ _ _ => ⟨calls_forall_append hh (by simp [Call.Provided]), by simp⟩ }
      readRefused := fun _ _ _ _ _ => calls_forall_append hhead (by simp [Call.Provided])
      readAccepted := fun _ _ _ _ _ _ => calls_forall_append hhead (by simp [Call.Provided])
      readZero := fun _ _ hb => ⟨hhead, fun _ => .inl hb⟩
      writeLoop := fun ht =>
        { leave := fun _ hh _ k w₁ _ => ⟨calls_forall_append hh (by simp [Call.Provided]), by simp⟩
          null := fun _ hh _ hno _ _ =>
            ⟨calls_forall_append hh (by simp [Call.Provided]), fun _ => .inr (.inl ⟨ht, hno p hp⟩)⟩
          written := fun _ hh _ _ hw _ _ _ _ => calls_forall_append hh (by simp [Call.Provided, hw])
          failed := fun _ hh _ _ hw _ _ _ _ => calls_forall_append hh (by simp [Call.Provided, hw])
          cut := fun _ hh _ _ _ => calls_forall_append hh (by simp [Call.Provided]) }
      writeRefused := fun _ _ => hhead
      writeAccepted := fun _ _ _ => hhead
      writeZero := fun _ _ hb => ⟨hhead, fun _ => .inl hb⟩
      disc := fun _ => ⟨hhead, by simp⟩
      flush := fun _ _ _ _ _ _ _ hf _ _ =>
        ⟨calls_forall_append hhead (by simp [Call.Provided, hf]), by simp⟩
      flushNull := fun ht hno => ⟨hhead, fun _ => .inr (.inr ⟨ht, hno p hp⟩)⟩
      other := fun _ _ _ _ _ _ _ => ⟨calls_forall_append hhead (by simp [Call.Provided]), by simp⟩ }
  exact H.round hq (fun _ _ _ _ hh => ⟨hh, by simp⟩) (fun _ _ _ _ _ hh => ⟨hh, by simp⟩) hc

section Guarded

variable (env) (p) (c) (q)

/-- A WRITE that is refused writes nothing: `sendflag` is clear, or what is received then falls
short of a chunk. -/
def Spared : Prop :=
  c.x.sendflag = 0 ∨ let y := (varsAt env c).chunk c.mem.ctx.minimumBlockSize
    asUInt32 (env (envAt env c q) (.recv c.mem.ctx.sock .nbdBuffer y.byteread.toNat)).1.ret ≠
    y.byteread

/-- When a request is handled. -/
structure Guarded : Prop where
  /-- A FLUSH needs `flush`. -/
  flush : q.type = NBD_CMD_FLUSH → p.flush = true
  /-- A WRITE without `pwrite` must write nothing. -/
  write : q.type = NBD_CMD_WRITE → p.pwrite = false → Spared env c q

end Guarded

/-- A FLUSH goes wrong where `flush` is not provided. -/
theorem flush_undefined (hp : c.mem.ctx.p = some p) (hq : requestAt env c = some q)
    (ht : q.type = NBD_CMD_FLUSH) (hf : p.flush = false) :
    (roundAt env cfg fuel c).out = .halt .undefined := by
  suffices wp env (serveIn cfg fuel c.mem c.x) (fun o _ _ _ => o = .halt .undefined)
      c.mem c.env from this
  refine wp_round_flush hq ht (wp_cmdFlush_none (fun p' hp' => ?_) rfl)
  cases hp.symm.trans hp'
  exact hf

/-- A WRITE without `pwrite`, which is refused, goes wrong where `sendflag` is set and a chunk is
received; else it is answered with an error. -/
theorem write_refused (hp : c.mem.ctx.p = some p) (heflags : c.mem.ctx.eflags = nbdifyEflags p)
    (hq : requestAt env c = some q) (ht : q.type = NBD_CMD_WRITE) (hw : p.pwrite = false) :
    wp env (serveIn cfg (fuel + 2) c.mem c.x) (fun o _ _ h =>
      (o = .halt .undefined ∧ ¬ Spared env c q) ∨ o ≠ .halt .undefined ∧ Spared env c q ∧
        ∃ error, error ≠ NBD_SUCCESS ∧ ∃ flags k,
          (⟨.send c.mem.ctx.sock .reply (simpleReply error q.handle) flags, k⟩ : Ev) ∈ h)
          c.mem c.env := by
  have hreadonly : hasReadOnly c.mem.ctx.eflags = true := by
    rw [heflags, hasReadOnly_nbdifyEflags, hw]
    rfl
  have hrefused : writeError c.mem.ctx q ≠ NBD_SUCCESS := by
    rw [writeError, if_pos hreadonly]
    decide
  refine wp_round_write hq ht (wp_cmdWrite_refused hrefused ?_)
  rw [wp_loop_succ]
  by_cases h0 : c.x.sendflag = 0
  · refine wp_writeChunk_done h0 fun k w₁ _ => .inr ⟨by simp, .inl h0, _, hrefused, 0, k, ?_⟩
    exact List.mem_append_right _ (List.mem_singleton.mpr rfl)
  · refine wp_writeChunk h0 (fun r w₁ hr hfull => ?_) (fun r w₁ hr hcut => ?_)
    · have hno : ∀ p', c.mem.ctx.p = some p' → p'.pwrite = false := by
        intro p' hp'
        cases hp.symm.trans hp'
        exact hw
      refine wp_pwriteChunk_none hno (.inl ⟨rfl, fun hspared => ?_⟩)
      rcases hspared with hclear | hshort
      · exact h0 hclear
      · simp only [hr] at hshort
        exact hshort hfull
    · have hspared : Spared env c q := by
        refine .inr ?_
        simp only [hr]
        exact hcut
      rw [Post.round_next, wp_loop_succ]
      refine wp_writeChunk_done stop_sendflag fun k w₂ _ =>
        .inr ⟨by simp, hspared, NBD_EOVERFLOW, by decide, 0, k, ?_⟩
      exact List.mem_append_right _ (List.mem_append_right _ (List.mem_singleton.mpr rfl))

/-- A round handles its request if and only if it is guarded, for an export as `nbdify_context`
leaves it. -/
theorem handled_iff (hc : c.x.Ok cfg c.mem.ctx.minimumBlockSize) (hp : c.mem.ctx.p = some p)
    (heflags : c.mem.ctx.eflags = nbdifyEflags p) (hq : requestAt env c = some q) :
    Handled p c.mem.ctx q (roundAt env cfg (fuel + 2) c) ↔ Guarded env p c q := by
  obtain ⟨hprovided, hdefined⟩ : wp env (serveIn cfg (fuel + 2) c.mem c.x) _ c.mem c.env :=
    round_provided hc hp hq
  constructor
  · intro h
    refine ⟨fun ht => ?_, fun ht hw => ?_⟩
    · by_contra hf
      rw [Bool.not_eq_true] at hf
      exact (h.defined (flush_undefined hp hq ht hf)).2 (.inr ⟨ht, hf⟩)
    · obtain ⟨hout, -⟩ | ⟨-, hspared, -⟩ :
          wp env (serveIn cfg (fuel + 2) c.mem c.x) _ c.mem c.env :=
        write_refused hp heflags hq ht hw
      · exact absurd (.inl ⟨ht, hw⟩) (h.defined hout).2
      · exact hspared
  · intro hg
    by_cases hneeds : Needs p q
    · rcases hneeds with ⟨ht, hw⟩ | ⟨ht, hf⟩
      · obtain ⟨-, hno⟩ | ⟨hout, -, hanswer⟩ :
            wp env (serveIn cfg (fuel + 2) c.mem c.x) _ c.mem c.env :=
          write_refused hp heflags hq ht hw
        · exact absurd (hg.write ht hw) hno
        · exact ⟨hprovided, fun hundef => absurd hundef hout, fun _ => hanswer⟩
      · exact absurd (hg.flush ht) (by simp [hf])
    · refine ⟨hprovided, fun hundef => ⟨?_, hneeds⟩, fun h => absurd h hneeds⟩
      exact (hdefined hundef).resolve_right hneeds

/-- **No callback that is missing is called.** For any plugin, and any export of it as
`nbdify_context` leaves it: a name is looked up well if and only if what it finds has a plugin with
`get_size`; at every head of the request loop, in any run, a request is handled if and only if it is
guarded; and in a run that cuts no data short, if and only if it is no FLUSH or there is a
`flush`. -/
theorem callbacks_provided {σ₀ : Type} (env₀ : Env Call Resp σ₀) (s₀ : Shared)
    (w₀ : σ₀) (p : Plugin) (hp : s₀.ctx.p = some p) (env : Env Call Resp σ) (cfg : Config)
    (fuel : ℕ) (w : σ) :
    let s := (nbdifyContext.run env₀ s₀ w₀).mem
    (∀ uri, LooksUpWell s uri ↔ s.reg.Served (yuarelParse uri).path) ∧
    ∀ c q, requestAt env c = some q →
      (AtRequest env cfg (fuel + 2) (fun _ => True) s w c →
        (Handled p s.ctx q (roundAt env cfg (fuel + 2) c) ↔ Guarded env p c q)) ∧
      (AtRequest env cfg (fuel + 2) (fun c => Uncut (roundAt env cfg (fuel + 2) c).trace) s w c →
        (Handled p s.ctx q (roundAt env cfg (fuel + 2) c) ↔
        (q.type = NBD_CMD_FLUSH → p.flush = true))) := by
  obtain ⟨-, hp', heflags, -⟩ := run_nbdifyContext env₀ w₀ hp
  intro s
  have hiff {ok : ReqHead σ → Prop} {c : ReqHead σ} {q : NbdRequest} (hq : requestAt env c = some q)
      (h : AtRequest env cfg (fuel + 2) ok s w c) :
      Handled p s.ctx q (roundAt env cfg (fuel + 2) c) ↔ Guarded env p c q := by
    obtain ⟨hmem, hx⟩ := h.frame
    rw [← hmem] at hx ⊢
    refine handled_iff hx ?_ ?_ hq
    · rw [hmem]
      exact hp'
    · rw [hmem]
      exact heflags
  refine ⟨fun uri => looksUpWell_iff, fun c q hq => ⟨fun h => hiff hq h, fun h => ?_⟩⟩
  rw [hiff hq h]
  exact ⟨fun hg => hg.flush, fun hf => ⟨hf, fun _ _ => .inl h.sendflag_eq_zero⟩⟩

namespace Sample

/-- A plugin that provides `pread`, and nothing else. -/
def bare : Plugin := ⟨0, false, false, false, false, false⟩

/-- An export of it. -/
def bareExport : Shared := ⟨{ Sample.ctx with p := some bare }, .empty⟩

/-- A head at which a request is read, of an export as `nbdify_context` leaves it. -/
def bareHead (q : NbdRequest) : ReqHead (Wire Unit) :=
  firstHead (wire quiet) Sample.cfg (nbdifyContext.run quiet bareExport ()).mem
    (Sample.client q.toBytes)

/-- `callbacks_provided`, with a WRITE, which is refused. -/
theorem callbacks_provided_write :
    Handled bare (nbdifyContext.run quiet bareExport ()).mem.ctx (ask NBD_CMD_WRITE 0 1)
    (roundAt (wire quiet) Sample.cfg 2 (bareHead (ask NBD_CMD_WRITE 0 1))) :=
  (((callbacks_provided quiet bareExport () bare rfl (wire quiet) Sample.cfg 0
    (Sample.client (ask NBD_CMD_WRITE 0 1).toBytes)).2 (bareHead (ask NBD_CMD_WRITE 0 1))
      (ask NBD_CMD_WRITE 0 1) (by decide +kernel)).2 .refl).mpr (by decide)

/-- **A FLUSH goes through `NULL`.** -/
theorem flush_missing :
    ¬ ∀ (σ₀ σ : Type) (env₀ : Env Call Resp σ₀) (s₀ : Shared) (w₀ : σ₀) (p : Plugin) (env : Env Call
      Resp σ) (cfg : Config) (fuel : ℕ) (w : σ) (c : ReqHead σ) (q : NbdRequest),
      s₀.ctx.p = some p → requestAt env c = some q →
      let s := (nbdifyContext.run env₀ s₀ w₀).mem
      AtRequest env cfg (fuel + 2) (fun _ => True) s w c →
      Handled p s.ctx q (roundAt env cfg (fuel + 2) c) := by
  intro h
  have hhandled := h Unit (Wire Unit) quiet bareExport () bare (wire quiet) Sample.cfg 0
    (Sample.client (ask NBD_CMD_FLUSH 0 0).toBytes) (bareHead (ask NBD_CMD_FLUSH 0 0))
    (ask NBD_CMD_FLUSH 0 0) rfl (by decide +kernel) .refl
  have hout : (roundAt (wire quiet) Sample.cfg 2 (bareHead (ask NBD_CMD_FLUSH 0 0))).out =
      .halt .undefined := by
    decide +kernel
  exact (hhandled.defined hout).2 (.inr ⟨rfl, rfl⟩)

end Sample

end LwNBD
