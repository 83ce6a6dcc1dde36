import LwNBD.Nbd.Options
import LwNBD.Nbd.Refused

/-!
# Read-only exports

Whether an export that is announced read-only is one. The answer to `NBD_OPT_EXPORT_NAME`
announces `NBD_FLAG_READ_ONLY` when `ctx->eflags` has it, and when `ctx->readonly` is set;
a WRITE is refused when `ctx->eflags` has it. Nothing sets the flag in `ctx->eflags` when
`ctx->readonly` is set: such an export is announced read-only and written all the same.

The phases are taken one after the other, the transmission phase on what the handshake
leaves; how the session loop goes from one to the other is a matter of its own.

## What is proved

* `exportReply_eflags` — the flags of an export reply are those `ctx` announces.
* `enforced_iff` — at a head that is reached, a request keeps the export read-only if and only
  if it is no WRITE, or `ctx->eflags` has the flag and `sendflag` is clear.
* `announced_read_only_enforced` — after a handshake that announces it.
-/

namespace LwNBD

open Resumption

/-! ### What is to be shown -/

/-- The flags sent in answer to `NBD_OPT_EXPORT_NAME` contain `NBD_FLAG_READ_ONLY`. -/
def AnnouncesReadOnly (h : List Ev) : Prop :=
  ∃ sock buf flags, ∃ k : Sent buf.length, (⟨.send sock .handshakeFinish buf flags, k⟩ : Ev) ∈ h ∧
    hasReadOnly (be16 (buf.slice 8 2)) = true

/-- Blocks are written. -/
def Writes (h : List Ev) : Prop :=
  ∃ p handle buf count offset, Call.pwrite p handle buf count offset ∈ calls h

/-- Handling a request kept the export read-only: nothing was written, and a WRITE was answered
with `NBD_EPERM`. -/
structure Enforced (q : NbdRequest) (h : List Ev) : Prop where
  /-- No `lwnbd_pwrite` was made. -/
  pwrite : ¬ Writes h
  /-- A WRITE is refused. -/
  reply : q.type = NBD_CMD_WRITE → sends h = [simpleReply NBD_EPERM q.handle]

variable {σ : Type} {env : Env Call Resp σ} {cfg : Config} {fuel : ℕ} {s : Shared} {w : σ}
variable {c : ReqHead σ} {q : NbdRequest}

/-! ### A round -/

/-- The error of a WRITE that is refused by the read-only check. -/
theorem writeError_readOnly {ctx : ContextNbd} (h : hasReadOnly ctx.eflags = true) :
    writeError ctx q = NBD_EPERM := if_pos h

theorem writeError_ne {ctx : ContextNbd} (h : hasReadOnly ctx.eflags = false) :
    writeError ctx q ≠ NBD_EPERM := by
  unfold writeError
  rw [h]
  split_ifs <;> first | contradiction | decide

/-- With `sendflag` clear, a WRITE is refused and does nothing. -/
theorem write_enforced (hq : requestAt env c = some q) (ht : q.type = NBD_CMD_WRITE)
    (hro : hasReadOnly c.mem.ctx.eflags = true) (h0 : c.x.sendflag = 0) :
    Enforced q (roundAt env cfg (fuel + 1) c).trace := by
  suffices wp env (serveIn cfg (fuel + 1) c.mem c.x) (fun _ _ _ h => Enforced q h)
      c.mem c.env from this
  have herr := writeError_readOnly (q := q) hro
  refine wp_round_write hq ht (wp_cmdWrite_refused (by rw [herr]; decide) ?_)
  rw [wp_loop_succ, herr]
  refine wp_writeChunk_done h0 fun k w₁ _ => ?_
  exact ⟨by simp [Writes, headerAt], fun _ => rfl⟩

/-- A WRITE that was not answered is not refused as it should be. -/
theorem not_enforced_of_unanswered {h : List Ev} (ht : q.type = NBD_CMD_WRITE) (hs : sends h = []) :
    ¬ Enforced q h := by
  intro he
  have hreply := he.reply ht
  rw [hs] at hreply
  cases hreply

/-- A WRITE that is not refused with `NBD_EPERM` while it is read, or has been written, is not
refused as it should be. -/
theorem unenforced_rules {s : Shared} (ht : q.type = NBD_CMD_WRITE) :
    WriteRules env s cfg s.ctx.minimumBlockSize
    (Post.thenReply env q.handle fun _ _ _ h => ¬ Enforced q h)
      (fun x e _ h => sends h = [] ∧ (x.sendflag ≠ 0 ∨ e ≠ NBD_EPERM ∨ Writes h)) where
  leave := by
    rintro x e w h - ⟨hs, h1 | h1 | h1⟩ h0 k w₁ - he
    · exact absurd h0 h1
    · have hreply := he.reply ht
      rw [sends_append, hs] at hreply
      obtain ⟨hreply, -⟩ := List.cons.inj hreply
      exact h1 (simpleReply_inj hreply).1
    · obtain ⟨p, handle, buf, n, o, hmem⟩ := h1
      exact he.pwrite ⟨p, handle, buf, n,
        o, by rw [calls_append]; exact List.mem_append_left _ hmem⟩
  null := by
    rintro x e w h r w₁ - ⟨hs, -⟩ - - - -
    exact not_enforced_of_unanswered ht (by rw [sends_append, hs]; rfl)
  written := by
    rintro x e w h p r w₁ k w₂ - ⟨hs, -⟩ - - - - - z - -
    exact ⟨by rw [sends_append, hs]; rfl, .inr (.inr ⟨_, _, _, _, _, by
      rw [calls_append]
      exact List.mem_append_right _ (.tail _ (.head _))⟩)⟩
  failed := by
    rintro x e w h p r w₁ k w₂ - ⟨hs, -⟩ - - - - - z - -
    exact ⟨by rw [sends_append, hs]; rfl, .inr (.inl (by decide))⟩
  cut := by
    rintro x e w h r w₁ - ⟨hs, -⟩ - - -
    exact ⟨by rw [sends_append, hs]; rfl, .inr (.inl (by decide))⟩

/-- With `sendflag` set, or without the flag, a WRITE is written, or answered otherwise. -/
theorem write_not_enforced (hc : c.x.Ok cfg c.mem.ctx.minimumBlockSize)
    (hq : requestAt env c = some q) (ht : q.type = NBD_CMD_WRITE)
    (hne : ¬(hasReadOnly c.mem.ctx.eflags = true ∧ c.x.sendflag = 0)) :
    ¬ Enforced q (roundAt env cfg fuel c).trace := by
  have H : RoundRules env cfg c.mem.ctx.minimumBlockSize c q (fun _ _ _ h => ¬ Enforced q h)
      (fun _ _ _ => False) (fun x e _ h => sends h = [] ∧
      (x.sendflag ≠ 0 ∨ e ≠ NBD_EPERM ∨ Writes h)) := by
    refine RoundRules.of_write ht (unenforced_rules ht) (fun _ => ⟨rfl, ?_⟩)
      (fun _ _ => ⟨rfl, .inr (.inl (by decide))⟩) (fun _ _ => not_enforced_of_unanswered ht rfl)
    by_cases hro : hasReadOnly c.mem.ctx.eflags = true
    · exact .inl fun h0 => hne ⟨hro, h0⟩
    · exact .inr (.inl (writeError_ne (by simpa using hro)))
  exact H.round hq (fun _ _ _ _ hJ => hJ.elim)
    (fun _ _ _ _ _ hJ => not_enforced_of_unanswered ht hJ.1) hc

theorem other_enforced (hc : c.x.Ok cfg c.mem.ctx.minimumBlockSize) (hq : requestAt env c = some q)
    (ht : q.type ≠ NBD_CMD_WRITE) : Enforced q (roundAt env cfg fuel c).trace := by
  suffices wp env (serveIn cfg fuel c.mem c.x) (fun _ _ _ h => ¬ Writes h) c.mem c.env from
    ⟨this, fun ht' => absurd ht' ht⟩
  have H : RoundRules env cfg c.mem.ctx.minimumBlockSize c q (fun _ _ _ h => ¬ Writes h)
      (fun _ _ h => ¬ Writes h) (fun _ _ _ _ => False) :=
    { readLoop := fun _ =>
        { leave := fun _ hJ _ => hJ
          null := fun _ hJ _ _ => hJ
          sent := by rintro x w h p r w₁ k w₂ - hJ - - - - z - -; simpa [Writes] using hJ
          cut := by rintro x w h p r w₁ k w₂ - hJ - - - - z - - -; simpa [Writes] using hJ
          again := by rintro x w h p r w₁ - hJ - - - - -; simpa [Writes] using hJ
          fail := by rintro x w h p r w₁ - hJ - - - - -; simpa [Writes] using hJ }
      readRefused := fun _ _ _ _ _ => by simp [Writes, headerAt]
      readAccepted := fun _ _ _ _ _ _ => by simp [Writes, headerAt]
      readZero := fun _ _ _ => by simp [Writes, headerAt]
      writeLoop := fun ht' => absurd ht' ht
      writeRefused := fun ht' => absurd ht' ht
      writeAccepted := fun ht' => absurd ht' ht
      writeZero := fun ht' => absurd ht' ht
      disc := fun _ => by simp [Writes, headerAt]
      flush := fun _ _ _ _ _ _ _ _ _ _ => by simp [Writes, headerAt]
      flushNull := fun _ _ => by simp [Writes, headerAt]
      other := fun _ _ _ _ _ _ _ => by simp [Writes, headerAt] }
  exact H.round hq (fun _ _ _ _ hJ => hJ) (fun _ _ _ _ _ hJ => hJ.elim) hc

/-- At a head that is reached, a request keeps the export read-only if and only if it is no
WRITE, or `ctx->eflags` has the flag and `sendflag` is clear. -/
theorem enforced_iff (hc : c.x.Ok cfg c.mem.ctx.minimumBlockSize) (hq : requestAt env c = some q) :
    Enforced q (roundAt env cfg (fuel + 1) c).trace ↔
      (q.type = NBD_CMD_WRITE → hasReadOnly c.mem.ctx.eflags = true ∧ c.x.sendflag = 0) := by
  constructor
  · intro he ht
    by_contra hne
    exact write_not_enforced hc hq ht hne he
  · intro h
    by_cases ht : q.type = NBD_CMD_WRITE
    · exact write_enforced hq ht (h ht).1 (h ht).2
    · exact other_enforced hc hq ht

/-! ### A session -/

/-- The flag is announced for one of two reasons. -/
theorem hasReadOnly_announced {ctx : ContextNbd} (h : hasReadOnly (announcedEflags ctx) = true) :
    ctx.readonly ≠ 0 ∨ hasReadOnly ctx.eflags = true := by
  unfold announcedEflags at h
  split_ifs at h with hr
  · exact .inl hr
  · exact .inr h

/-- **An export that is announced read-only** by a handshake that goes on to the transmission
phase. It is announced for `ctx->readonly` or for `ctx->eflags`. If for `ctx->eflags`, requests
keep it read-only in every run that cuts no data short; and at every head that is reached by
whatever run, a request does if and only if it is no WRITE, or `ctx->eflags` has the flag and
`sendflag` is clear. -/
theorem announced_read_only_enforced (env : Env Call Resp σ) (cfg : Config) (fuel : ℕ)
    (s : Shared) (w : σ) (client client' : NbdClient)
    (hret : ((protocolHandshake cfg fuel client).run env s w).out = .ret (0, client'))
    (hro : AnnouncesReadOnly ((protocolHandshake cfg fuel client).run env s w).trace) :
    let z := (protocolHandshake cfg fuel client).run env s w
    z.mem.ctx = { s.ctx with state := .transmission } ∧
    (s.ctx.readonly ≠ 0 ∨ hasReadOnly s.ctx.eflags = true) ∧
    (hasReadOnly s.ctx.eflags = true → ∀ n c q,
      AtRequest env cfg (n + 1) (fun c => Uncut (roundAt env cfg (n + 1) c).trace) z.mem z.env c →
      requestAt env c = some q → Enforced q (roundAt env cfg (n + 1) c).trace) ∧
    ∀ n c q, AtRequest env cfg (n + 1) (fun _ => True) z.mem z.env c → requestAt env c = some q →
      (Enforced q (roundAt env cfg (n + 1) c).trace ↔
        (q.type = NBD_CMD_WRITE → hasReadOnly s.ctx.eflags = true ∧ c.x.sendflag = 0)) := by
  intro z
  have hn : Negotiated s client z.out z.mem z.trace := handshake_negotiated
  obtain ⟨sock, buf, flags, k, hmem, hflag⟩ := hro
  obtain ⟨rfl, hstate⟩ := hn.finish hmem
  have hctx : z.mem.ctx = { s.ctx with state := .transmission } := by rw [hn.frame, hstate _ hret]
  have heflags : z.mem.ctx.eflags = s.ctx.eflags := by rw [hctx]
  rw [exportReply_eflags] at hflag
  refine ⟨hctx, hasReadOnly_announced hflag, fun he n c q h hq => ?_, fun n c q h hq => ?_⟩
  · obtain ⟨hmem, hc⟩ := h.frame
    rw [← hmem] at hc heflags
    exact (enforced_iff hc hq).mpr fun _ => ⟨by rw [heflags, he], h.sendflag_eq_zero⟩
  · obtain ⟨hmem, hc⟩ := h.frame
    rw [← hmem] at hc heflags
    rw [← heflags]
    exact enforced_iff hc hq

namespace Sample

/-- A server whose exports are all to be read-only. -/
def readonly : Shared := ⟨{ Sample.ctx with readonly := 1 }, .empty⟩

/-- An export that is read-only itself. -/
def guarded : Shared := ⟨{ Sample.ctx with eflags := NBD_FLAG_READ_ONLY }, .empty⟩

/-- A client in the handshake, with a context. -/
def newcomer : NbdClient := ⟨5, .handshake, some slot⟩

/-- A client that asks for the export it has, and writes a block. -/
def intruder : Wire Unit :=
  client (toBe32 3 ++ option NBD_OPT_EXPORT_NAME 0 ++ (ask NBD_CMD_WRITE 0 1).toBytes ++ [1])

/-- What the handshake with it leaves. -/
def handshakeOn (s : Shared) : Result Shared Call Resp (Wire Unit) (ℤ × NbdClient) :=
  (protocolHandshake Sample.cfg 2 newcomer).run (wire quiet) s intruder

/-- The first request head after it. -/
def headOn (s : Shared) : ReqHead (Wire Unit) :=
  firstHead (wire quiet) Sample.cfg (handshakeOn s).mem (handshakeOn s).env

theorem handshakeOn_guarded : (handshakeOn guarded).out = .ret (0, newcomer) := by decide +kernel

theorem handshakeOn_readonly : (handshakeOn readonly).out = .ret (0, newcomer) := by decide +kernel

theorem announces_of_mem {h : List Ev}
    (hmem : (⟨.send 5 .handshakeFinish [0, 0, 0, 0, 0, 0, 0, 8, 0, 2] 0,
      ⟨10, by decide, by decide⟩⟩ : Ev) ∈ h) :
    AnnouncesReadOnly h :=
  ⟨5, _, 0, _, hmem, by decide⟩

theorem announces_guarded : AnnouncesReadOnly (handshakeOn guarded).trace :=
  announces_of_mem (by decide +kernel)

theorem announces_readonly : AnnouncesReadOnly (handshakeOn readonly).trace :=
  announces_of_mem (by decide +kernel)

/-- An export that is read-only itself is not written. -/
theorem announced_read_only_enforced_guarded :
    Enforced (ask NBD_CMD_WRITE 0 1) (roundAt (wire quiet) Sample.cfg 8 (headOn guarded)).trace :=
  (announced_read_only_enforced (wire quiet) Sample.cfg 2 guarded intruder newcomer newcomer
    handshakeOn_guarded announces_guarded).2.2.1 (by decide) 7 (headOn guarded) _
    .refl (by decide +kernel)

/-- **An export that `ctx->readonly` makes read-only is written**, and the WRITE is answered with
success. -/
theorem announced_read_only_written :
    ¬ ∀ (σ : Type) (env : Env Call Resp σ) (cfg : Config) (fuel : ℕ) (s : Shared) (w : σ) (client
      client' : NbdClient), ((protocolHandshake cfg fuel client).run env s w).out =
      .ret (0, client') →
      AnnouncesReadOnly ((protocolHandshake cfg fuel client).run env s w).trace →
      let z := (protocolHandshake cfg fuel client).run env s w
      ∀ n c q, AtRequest env cfg (n + 1) (fun _ => True) z.mem z.env c → requestAt env c = some q →
        Enforced q (roundAt env cfg (n + 1) c).trace := by
  intro h
  have he := h _ (wire quiet) Sample.cfg 2 readonly intruder newcomer newcomer handshakeOn_readonly
    announces_readonly 7 (headOn readonly) (ask NBD_CMD_WRITE 0 1) .refl (by decide +kernel)
  exact absurd (he.reply rfl) (by decide +kernel)

end Sample

end LwNBD
