import LwNBD.Nbd.Requests

/-!
# Writes that are not empty

The loop of a WRITE goes round at least once. So a WRITE of less than a block has the plugin write
no blocks, and a plugin need not be ready for that. Of a request of some blocks every chunk has
some.

## The model

* `Call.Fills` — a call that writes has blocks to write.
* `NbdRequest.Filled` — a request that writes has blocks to write.

## What is proved

* `filled_write_rules` — the chunks of such a request have blocks.
* `round_fills` — and so has every call of its round.
-/

namespace LwNBD

open Resumption

/-- There are blocks to be written. -/
def Call.Fills : Call → Prop
  | .pwrite _ _ _ count _ => count ≠ 0
  | _ => True

/-- A WRITE has a block at least. -/
def NbdRequest.Filled (q : NbdRequest) (blocksize : UInt32) : Prop :=
  q.type = NBD_CMD_WRITE → q.blocks blocksize ≠ 0

variable {σ : Type} {env : Env Call Resp σ} {cfg : Config} {fuel : ℕ} {blocksize : UInt32}
  {s : Shared} {x : Vars} {c : ReqHead σ} {q : NbdRequest}

/-- What is left of a request, while there is more to come: the next chunk has a block, and so have
those after it. -/
def Vars.Left (x : Vars) : Prop := x.sendflag ≠ 0 → x.blkremains.toNat ≠ 0 ∧ x.bufblksz.toNat ≠ 0

theorem Vars.Left.count_ne_zero (h : x.Left) (hne : x.sendflag ≠ 0) :
    (x.chunk blocksize).bufblksz ≠ 0 := by
  obtain ⟨hrem, hbuf⟩ := h hne
  intro h0
  have hmin : (x.chunk blocksize).bufblksz.toNat = min x.blkremains.toNat x.bufblksz.toNat :=
    chunk_bufblksz
  rw [h0, UInt32.toNat_zero] at hmin
  omega

/-- After a chunk that is not the last some blocks are left. -/
theorem Vars.Left.advance (h : x.Left) (hne : x.sendflag ≠ 0) (d : Bytes) :
    (((x.chunk blocksize).fill d).advance cfg).Left := by
  obtain ⟨hrem, hbuf⟩ := h hne
  intro hmore
  rw [advance_sendflag, fill_sendflag, chunk_sendflag] at hmore
  by_cases hlast : x.blkremains.toNat ≤ x.bufblksz.toNat
  · rw [if_pos hlast] at hmore
    exact absurd rfl hmore
  · have hle : ((x.chunk blocksize).fill d).bufblksz.toNat ≤
        ((x.chunk blocksize).fill d).blkremains.toNat := by
      rw [fill_bufblksz, chunk_bufblksz, fill_blkremains, chunk_blkremains]
      exact Nat.min_le_left _ _
    rw [advance_blkremains cfg hle, advance_bufblksz, fill_bufblksz, chunk_bufblksz,
      fill_blkremains, chunk_blkremains]
    omega

theorem accept_left (hq : q.blocks blocksize ≠ 0) (h1 : 1 ≤ blocksize.toNat)
    (h2 : blocksize.toNat ≤ cfg.bufferLen) : (x.accept cfg blocksize q).Left := by
  intro _
  rw [accept_blkremains, accept_bufblksz]
  exact ⟨hq, Nat.ne_of_gt (Nat.div_pos h2 h1)⟩

/-- The chunks of a WRITE of some blocks have some. -/
theorem filled_write_rules : WriteRules env s cfg blocksize
    (Post.thenReply env q.handle fun _ _ _ h => ∀ e ∈ calls h, e.Fills)
    (fun x _ _ h => x.Left ∧ ∀ e ∈ calls h, e.Fills) where
  leave := fun _ hJ _ _ _ _ => calls_forall_append hJ.2 (by simp [Call.Fills])
  null := fun _ hJ _ _ _ _ => calls_forall_append hJ.2 (by simp [Call.Fills])
  written := by
    intro x e w h p r w₁ k w₂ _ hJ hne _ _ _ _ z _ _
    have hcount : (x.chunk blocksize).bufblksz ≠ 0 := hJ.1.count_ne_zero hne
    exact ⟨hJ.1.advance hne _, calls_forall_append hJ.2 (by simpa [Call.Fills] using hcount)⟩
  failed := by
    intro x e w h p r w₁ k w₂ _ hJ hne _ _ _ _ z _ _
    have hcount : (x.chunk blocksize).bufblksz ≠ 0 := hJ.1.count_ne_zero hne
    exact ⟨fun hmore => absurd rfl hmore,
      calls_forall_append hJ.2 (by simpa [Call.Fills] using hcount)⟩
  cut :=
    fun _ hJ _ _ _ =>
    ⟨fun hmore => absurd rfl hmore, calls_forall_append hJ.2 (by simp [Call.Fills])⟩

theorem filled_read_rules : ReadRules env s cfg blocksize (fun _ _ _ h => ∀ e ∈ calls h, e.Fills)
    (fun _ _ h => ∀ e ∈ calls h, e.Fills) where
  leave := fun _ hJ _ => hJ
  null := fun _ hJ _ _ => hJ
  sent := fun _ hJ _ _ _ _ _ _ => calls_forall_append hJ (by simp [Call.Fills])
  cut := fun _ hJ _ _ _ _ _ _ _ => calls_forall_append hJ (by simp [Call.Fills])
  again := fun _ hJ _ _ _ _ _ => calls_forall_append hJ (by simp [Call.Fills])
  fail := fun _ hJ _ _ _ _ _ => calls_forall_append hJ (by simp [Call.Fills])

/-- A round has the plugin write some blocks, or none, if its request does. -/
theorem round_fills (h1 : 1 ≤ blocksize.toNat) (h2 : blocksize.toNat ≤ cfg.bufferLen)
    (hc : c.x.Ok cfg blocksize) (h0 : c.x.sendflag = 0)
    (hfilled : ∀ q, requestAt env c = some q → q.Filled blocksize) :
    wp env (serveRequest cfg fuel blocksize c.x) (fun _ _ _ h => ∀ e ∈ calls h, e.Fills)
    c.mem c.env := by
  cases hq : requestAt env c with
  | none => exact wp_round_none hq (by simp [Call.Fills])
  | some q =>
    have hhead : ∀ e ∈ calls (headerAt env c q), e.Fills := by simp [headerAt, Call.Fills]
    have hvars : (varsAt env c).Left := fun hne => absurd h0 hne
    have H : RoundRules env cfg blocksize c q (fun _ _ _ h => ∀ e ∈ calls h, e.Fills)
        (fun _ _ h => ∀ e ∈ calls h, e.Fills) (fun x _ _ h => x.Left ∧ ∀ e ∈ calls h, e.Fills) :=
      { readLoop := fun _ => filled_read_rules
        readRefused := fun _ _ _ _ _ => calls_forall_append hhead (by simp [Call.Fills])
        readAccepted := fun _ _ _ _ _ _ => calls_forall_append hhead (by simp [Call.Fills])
        readZero := fun _ _ _ => hhead
        writeLoop := fun _ => filled_write_rules
        writeRefused := fun _ _ => ⟨hvars, hhead⟩
        writeAccepted := fun ht _ _ => ⟨accept_left (hfilled q hq ht) h1 h2, hhead⟩
        writeZero := fun _ _ _ => hhead
        disc := fun _ => hhead
        flush := fun _ _ _ _ _ _ _ _ _ _ => calls_forall_append hhead (by simp [Call.Fills])
        flushNull := fun _ _ => hhead
        other := fun _ _ _ _ _ _ _ => calls_forall_append hhead (by simp [Call.Fills]) }
    exact H.round hq (fun _ _ _ _ hJ => hJ) (fun _ _ _ _ _ hJ => hJ.2) hc

end LwNBD
