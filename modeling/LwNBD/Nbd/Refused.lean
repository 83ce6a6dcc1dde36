import LwNBD.Nbd.Requests
import LwNBD.Nbd.Sample

/-!
# Refused requests

What handling a READ or a WRITE does that is refused by the range check or by the
read-only check. The code means it to do nothing but send an error: the loops that move
data run while `sendflag` is set, and only an accepted request sets it. But `sendflag`
is declared outside the request loop, a refusal does not clear it, and a READ whose data
are cut short by the transport leaves it set: the next request that is refused then goes
on with the blocks of that READ.

## What is proved

* `refused_effectless_iff` — at every head that is reached, handling a refused request
  has no effect if and only if `sendflag` is clear.
* `AtRequest.sendflag_eq_zero` — and it is clear in every run whose transport cuts no
  data short.
-/

namespace LwNBD

open Resumption

/-! ### What is to be shown -/

/-- A READ or a WRITE that is refused, by the range check or by the read-only check. -/
def Refused (ctx : ContextNbd) (q : NbdRequest) : Prop :=
  q.type = NBD_CMD_READ ∧ outOfRange ctx.exportsize q = true ∨
    q.type = NBD_CMD_WRITE ∧ writeError ctx q ≠ NBD_SUCCESS

/-- What is sent, send by send. -/
def sends (h : List Ev) : List Bytes := h.filterMap fun
  | ⟨.send _ _ buf _, _⟩ => some buf
  | _ => none

@[simp] theorem sends_append (h h' : List Ev) : sends (h ++ h') = sends h ++ sends h' :=
  List.filterMap_append

/-- Handling a request had no effect: no block was read or written, no data were received,
and an error reply is all that was sent. -/
structure Effectless (q : NbdRequest) (h : List Ev) : Prop where
  /-- No `lwnbd_pread` was made. -/
  pread : ∀ p handle count offset, Call.pread p handle count offset ∉ calls h
  /-- No `lwnbd_pwrite` was made. -/
  pwrite : ∀ p handle buf count offset, Call.pwrite p handle buf count offset ∉ calls h
  /-- No data were received. -/
  recv : ∀ sock len, Call.recv sock .nbdBuffer len ∉ calls h
  /-- An error reply was sent, and nothing else. -/
  reply : ∃ error, error ≠ NBD_SUCCESS ∧ sends h = [simpleReply error q.handle]

variable {σ : Type} {env : Env Call Resp σ} {cfg : Config} {fuel : ℕ} {s : Shared} {w : σ}
variable {c : ReqHead σ} {q : NbdRequest}

/-! ### Handling a refused request -/

/-- With `sendflag` clear, an error reply is all there is. -/
theorem refused_effectless (hq : requestAt env c = some q) (hr : Refused c.mem.ctx q)
    (h0 : c.x.sendflag = 0) : Effectless q (roundAt env cfg (fuel + 1) c).trace := by
  suffices wp env (serveIn cfg (fuel + 1) c.mem c.x) (fun _ _ _ h => Effectless q h)
      c.mem c.env from this
  rcases hr with ⟨ht, hr⟩ | ⟨ht, hr⟩
  · refine wp_round_read hq ht (wp_cmdRead_refused hr fun k w₁ _ => ?_)
    rw [wp_loop_succ]
    refine wp_readChunk_done h0 ?_
    exact ⟨by simp [headerAt], by simp [headerAt], by simp [headerAt], NBD_EIO, by decide, rfl⟩
  · refine wp_round_write hq ht (wp_cmdWrite_refused hr ?_)
    rw [wp_loop_succ]
    refine wp_writeChunk_done h0 fun k w₁ _ => ?_
    exact ⟨by simp [headerAt], by simp [headerAt], by simp [headerAt], _, hr, rfl⟩

/-- With `sendflag` set, a READ reads a block, and a WRITE receives data. -/
theorem refused_effect (hq : requestAt env c = some q) (hr : Refused c.mem.ctx q)
    (hne : c.x.sendflag ≠ 0) (hp : c.mem.ctx.p ≠ none) :
    ¬ Effectless q (roundAt env cfg (fuel + 1) c).trace := by
  suffices wp env (serveIn cfg (fuel + 1) c.mem c.x) (fun _ _ _ h => ¬ Effectless q h)
      c.mem c.env from this
  let y := (varsAt env c).chunk c.mem.ctx.minimumBlockSize
  rcases hr with ⟨ht, hr⟩ | ⟨ht, hr⟩
  · obtain ⟨p, hp⟩ := Option.ne_none_iff_exists'.mp hp
    have hread : ∀ h, Call.pread p c.mem.ctx.handle y.bufblksz c.x.offset ∈ calls h →
        ¬ Effectless q h :=
      fun h hmem he => he.pread _ _ _ _ hmem
    refine wp_round_read hq ht (wp_cmdRead_refused hr fun k w₁ _ => ?_)
    refine wp_loop_first env (wp_readChunk hp hne (fun r w₂ _ _ => ?_) (fun r w₂ _ _ => ?_))
    · exact wp_of_forall env fun _ _ _ _ _ _ _ _ => hread _ (by simp [y])
    · exact fun _ _ _ _ => hread _ (by simp [y])
  · have hrecv : ∀ h, Call.recv c.mem.ctx.sock .nbdBuffer y.byteread.toNat ∈ calls h →
        ¬ Effectless q h :=
      fun h hmem he => he.recv _ _ hmem
    refine wp_round_write hq ht (wp_cmdWrite_refused hr ?_)
    refine wp_loop_first env (wp_writeChunk hne (fun r w₂ _ _ => ?_) (fun r w₂ _ _ => ?_))
    · refine wp_of_forall env fun _ _ _ _ o _ _ _ => ?_
      cases o with
      | ret v => exact fun k w₁ _ => hrecv _ (by simp [y])
      | halt e => exact hrecv _ (by simp [y])
    · intro o _ _ _
      cases o with
      | ret v => exact fun k w₁ _ => hrecv _ (by simp [y])
      | halt e => exact hrecv _ (by simp [y])

/-- At every head that is reached, handling a refused request has no effect if and only if
`sendflag` is clear. -/
theorem refused_effectless_iff {ok : ReqHead σ → Prop} (h : AtRequest env cfg (fuel + 1) ok s w c)
    (hq : requestAt env c = some q) (hr : Refused s.ctx q) :
    Effectless q (roundAt env cfg (fuel + 1) c).trace ↔ c.x.sendflag = 0 := by
  obtain ⟨rfl, -⟩ := h.frame
  refine ⟨fun he => ?_, refused_effectless hq hr⟩
  by_contra hne
  exact refused_effect hq hr hne (h.plugin hne) he

/-- **A refused request has no effect**, in every run that cuts no data short; and at every
head that is reached by whatever run, if and only if `sendflag` is clear there. -/
theorem refused_request_has_no_effect (env : Env Call Resp σ) (cfg : Config) (fuel : ℕ)
    (s : Shared) (w : σ) (c : ReqHead σ) (q : NbdRequest) (hq : requestAt env c = some q)
    (hr : Refused s.ctx q) :
    (AtRequest env cfg (fuel + 1) (fun c => Uncut (roundAt env cfg (fuel + 1) c).trace) s w c →
      Effectless q (roundAt env cfg (fuel + 1) c).trace) ∧
    (AtRequest env cfg (fuel + 1) (fun _ => True) s w c →
      (Effectless q (roundAt env cfg (fuel + 1) c).trace ↔ c.x.sendflag = 0)) :=
  ⟨fun h => (refused_effectless_iff h hq hr).mpr h.sendflag_eq_zero,
    fun h => refused_effectless_iff h hq hr⟩

namespace Sample

/-- A client that reads four bytes, and then outside the export. -/
def reader : Wire Unit :=
  client ((ask NBD_CMD_READ 0 4).toBytes ++ (ask NBD_CMD_READ 100 1).toBytes)

/-- Over the lossless transport, the second request is refused, and answered with an error only. -/
theorem refused_request_has_no_effect_second :
    Effectless (ask NBD_CMD_READ 100 1) (roundAt (wire quiet) Sample.cfg 8
      ((firstHead (wire quiet) Sample.cfg mem reader).rounds (wire quiet)
      (serveIn Sample.cfg 8 mem) 1)).trace :=
  (refused_request_has_no_effect (wire quiet) Sample.cfg 7 mem reader _ (ask NBD_CMD_READ 100 1)
    (by decide +kernel) (.inl ⟨rfl, by decide⟩)).1
    (AtRequest.mono (fun _ _ => wire_uncut _ _ _) (Head.reaches_rounds _ 1 _))

/-- **A refused READ reads blocks**, after a READ that was cut short. -/
theorem refused_request_has_effect :
    ¬ ∀ (σ : Type) (env : Env Call Resp σ) (cfg : Config) (fuel : ℕ) (s :
      Shared) (w : σ) (c : ReqHead σ) (q : NbdRequest),
      AtRequest env cfg (fuel + 1) (fun _ => True) s w c → requestAt env c = some q →
      Refused s.ctx q → Effectless q (roundAt env cfg (fuel + 1) c).trace := by
  intro h
  have he := h _ (cutData (wire quiet)) Sample.cfg 7 mem reader _ (ask NBD_CMD_READ 100 1)
    (Head.reaches_rounds _ 1 _) (by decide +kernel) (.inl ⟨rfl, by decide⟩)
  exact he.pread plugin 7 2 0 (by decide +kernel)

end Sample

end LwNBD
