import LwNBD.Nbd.Requests
import LwNBD.Nbd.Sample

/-!
# Inside the export

Whether a client can reach outside the export. The range check adds the offset and the
count of a request in `uint64_t`, where the sum may wrap round; a request whose sum does
is accepted if what is left of it is not past the end. No other request that is accepted
reaches past the end, nor does any block it is served by.

## What is proved

* `round_inBounds` — a round keeps within the export, and keeps the blocks that a READ cut
  short may leave for later within it, if no request that is accepted wraps round.
* `no_access_outside_export` — in a run of such requests, the bounds hold of each request
  if and only if it does not wrap round.
-/

namespace LwNBD

open Resumption

/-- The end of a request's range, as a natural number. -/
def NbdRequest.stop (q : NbdRequest) : ℕ := q.offset.toNat + q.count.toNat

/-- A READ or a WRITE that the checks accept. -/
def Accepted (ctx : ContextNbd) (q : NbdRequest) : Prop :=
  q.type = NBD_CMD_READ ∧ outOfRange ctx.exportsize q = false ∨
    q.type = NBD_CMD_WRITE ∧ writeError ctx q = NBD_SUCCESS

instance (ctx : ContextNbd) (q : NbdRequest) : Decidable (Accepted ctx q) :=
  inferInstanceAs (Decidable (q.type = NBD_CMD_READ ∧ outOfRange ctx.exportsize q = false ∨
    q.type = NBD_CMD_WRITE ∧ writeError ctx q = NBD_SUCCESS))

/-- The range of the request does not wrap round, if it is accepted. -/
def Unwrapped (ctx : ContextNbd) (q : NbdRequest) : Prop := Accepted ctx q → q.stop < 2 ^ 64

/-- `count` blocks from block `offset` lie in the export. -/
def BlocksWithin (ctx : ContextNbd) (count : UInt32) (offset : UInt64) : Prop :=
  ((offset.toNat + count.toNat) * ctx.minimumBlockSize.toNat : ℕ) ≤ ctx.exportsize.toInt

/-- A call reads or writes no block outside the export. -/
def CallWithin (ctx : ContextNbd) : Call → Prop
  | .pread _ _ count offset => BlocksWithin ctx count offset
  | .pwrite _ _ _ count offset => BlocksWithin ctx count offset
  | _ => True

/-- The bounds of the export are kept in handling a request: it is accepted only if its
range lies in the export, and every block that is read or written for it does. -/
structure InBounds (ctx : ContextNbd) (q : NbdRequest) (h : List Ev) : Prop where
  /-- The range of the request. -/
  range : Accepted ctx q → (q.stop : ℤ) ≤ ctx.exportsize.toInt
  /-- The blocks. -/
  blocks : ∀ e ∈ calls h, CallWithin ctx e

variable {σ : Type} {env : Env Call Resp σ} {cfg : Config} {fuel : ℕ} {s : Shared} {w : σ}
variable {c : ReqHead σ} {q : NbdRequest} {ctx : ContextNbd}

/-! ### The range check -/

theorem accepted_read (ht : q.type = NBD_CMD_READ) :
    Accepted ctx q ↔ outOfRange ctx.exportsize q = false := by
  simp [Accepted, ht, NBD_CMD_READ, NBD_CMD_WRITE]

theorem accepted_write (ht : q.type = NBD_CMD_WRITE) :
    Accepted ctx q ↔ writeError ctx q = NBD_SUCCESS := by
  simp [Accepted, ht, NBD_CMD_READ, NBD_CMD_WRITE]

theorem Accepted.inRange (h : Accepted ctx q) : outOfRange ctx.exportsize q = false := by
  rcases h with ⟨-, h⟩ | ⟨-, h⟩
  · exact h
  · exact (writeError_eq_success.mp h).2

/-- The check is right about a range that does not wrap round. -/
theorem stop_le_exportsize (hE : 0 ≤ ctx.exportsize.toInt)
    (hr : outOfRange ctx.exportsize q = false) (hlt : q.stop < 2 ^ 64) :
    (q.stop : ℤ) ≤ ctx.exportsize.toInt := by
  have h := outOfRange_eq_false_iff.mp hr
  unfold NbdRequest.stop at *
  rw [Nat.mod_eq_of_lt hlt] at h
  have := toNat_toUInt64_of_nonneg hE
  omega

theorem stop_lt_of_le (hle : (q.stop : ℤ) ≤ ctx.exportsize.toInt) : q.stop < 2 ^ 64 := by
  have := ctx.exportsize.toInt_lt
  omega

/-- Blocks that begin and end within a range lie in it. -/
theorem div_add_div_mul_le (a b n : ℕ) : (a / n + b / n) * n ≤ a + b := by
  rw [Nat.add_mul]
  exact Nat.add_le_add (Nat.div_mul_le_self a n) (Nat.div_mul_le_self b n)

/-! ### The chunks -/

/-- The blocks still to be served lie in the export. -/
def Vars.Within (ctx : ContextNbd) (x : Vars) : Prop :=
  x.sendflag ≠ 0 →
    ((x.offset.toNat + x.blkremains.toNat) * ctx.minimumBlockSize.toNat : ℕ) ≤ ctx.exportsize.toInt

theorem accept_within {x : Vars} (hle : (q.stop : ℤ) ≤ ctx.exportsize.toInt) :
    (x.accept cfg ctx.minimumBlockSize q).Within ctx := by
  intro _
  rw [accept_offset, accept_blkremains]
  have := div_add_div_mul_le q.offset.toNat q.count.toNat ctx.minimumBlockSize.toNat
  unfold NbdRequest.stop at hle
  omega

theorem chunk_within {x : Vars} (h : x.Within ctx) (hne : x.sendflag ≠ 0) :
    BlocksWithin ctx (x.chunk ctx.minimumBlockSize).bufblksz x.offset := by
  have hx := h hne
  unfold BlocksWithin
  rw [chunk_bufblksz]
  have := Nat.mul_le_mul_right ctx.minimumBlockSize.toNat
    (Nat.add_le_add_left (Nat.min_le_left x.blkremains.toNat x.bufblksz.toNat) x.offset.toNat)
  omega

/-- What is left after a chunk is still to be served. -/
theorem advance_within {x : Vars} {d : Bytes} (h : x.Within ctx) (hne : x.sendflag ≠ 0) :
    (((x.chunk ctx.minimumBlockSize).fill d).advance cfg).Within ctx := by
  intro _
  have hx := h hne
  have hle : ((x.chunk ctx.minimumBlockSize).fill d).bufblksz.toNat ≤
      ((x.chunk ctx.minimumBlockSize).fill d).blkremains.toNat := by
    rw [fill_bufblksz, chunk_bufblksz, fill_blkremains, chunk_blkremains]
    exact Nat.min_le_left _ _
  rw [advance_blkremains cfg hle, advance_offset]
  simp only [fill_bufblksz, fill_blkremains, chunk_blkremains, fill_offset, chunk_offset] at hle ⊢
  have hmod := Nat.mod_le (x.offset.toNat + (x.chunk ctx.minimumBlockSize).bufblksz.toNat) (2 ^ 64)
  have := Nat.mul_le_mul_right ctx.minimumBlockSize.toNat (show (x.offset.toNat +
    (x.chunk ctx.minimumBlockSize).bufblksz.toNat) % 2 ^ 64 + (x.blkremains.toNat -
    (x.chunk ctx.minimumBlockSize).bufblksz.toNat) ≤ x.offset.toNat + x.blkremains.toNat by omega)
  omega

/-- What a chunk of a READ leaves when it is not sent. -/
theorem fill_within {x : Vars} {d : Bytes} (h : x.Within ctx) (hne : x.sendflag ≠ 0) :
    ((x.chunk ctx.minimumBlockSize).fill d).Within ctx := by
  intro _
  simpa using h hne

/-! ### A round -/

/-- What is to be shown of a round: what is asked of the plugin lies in the export, and so do the
blocks that are left. -/
def RoundWithin (ctx : ContextNbd) (o : Outcome (Ctl Vars ℤ)) (h : List Ev) : Prop :=
  (∀ e ∈ calls h, CallWithin ctx e) ∧ ∀ x', o = .ret (.next x') → x'.Within ctx

theorem within_read_rules :
    ReadRules env s cfg s.ctx.minimumBlockSize (fun o _ _ h => RoundWithin s.ctx o h)
    (fun x _ h => x.Within s.ctx ∧ ∀ e ∈ calls h, CallWithin s.ctx e) where
  leave := by
    rintro x w h - ⟨hJ, hh⟩ h0
    exact ⟨hh, by rintro x' ⟨⟩; exact hJ⟩
  null := by
    rintro x w h - ⟨-, hh⟩ - -
    exact ⟨hh, by simp⟩
  sent := by
    rintro x w h p r w₁ k w₂ - ⟨hJ, hh⟩ hne - - - z - -
    refine ⟨advance_within hJ hne, ?_⟩
    exact calls_forall_append hh (by simpa [CallWithin] using chunk_within hJ hne)
  cut := by
    rintro x w h p r w₁ k w₂ - ⟨hJ, hh⟩ hne - - - z - - -
    refine ⟨?_, by rintro x' ⟨⟩; exact fill_within hJ hne⟩
    exact calls_forall_append hh (by simpa [CallWithin] using chunk_within hJ hne)
  again := by
    rintro x w h p r w₁ - ⟨hJ, hh⟩ hne - - - -
    refine ⟨fun _ => by simpa using hJ hne, ?_⟩
    exact calls_forall_append hh (by simpa [CallWithin] using chunk_within hJ hne)
  fail := by
    rintro x w h p r w₁ - ⟨hJ, hh⟩ hne - - - -
    refine ⟨?_, by simp⟩
    exact calls_forall_append hh (by simpa [CallWithin] using chunk_within hJ hne)

theorem within_write_rules : WriteRules env s cfg s.ctx.minimumBlockSize
    (Post.thenReply env q.handle fun o _ _ h => RoundWithin s.ctx o h)
    (fun x _ _ h => x.Within s.ctx ∧ ∀ e ∈ calls h, CallWithin s.ctx e) where
  leave := by
    rintro x e w h - ⟨hJ, hh⟩ h0 k w₁ -
    exact ⟨calls_forall_append hh (by simp [CallWithin]), by rintro x' ⟨⟩; exact hJ⟩
  null := by
    rintro x e w h r w₁ - ⟨-, hh⟩ - - - -
    exact ⟨calls_forall_append hh (by simp [CallWithin]), by simp⟩
  written := by
    rintro x e w h p r w₁ k w₂ - ⟨hJ, hh⟩ hne - - - - z - -
    refine ⟨advance_within hJ hne, ?_⟩
    exact calls_forall_append hh (by simpa [CallWithin] using chunk_within hJ hne)
  failed := by
    rintro x e w h p r w₁ k w₂ - ⟨hJ, hh⟩ hne - - - - z - -
    refine ⟨fun h0 => absurd rfl h0, ?_⟩
    exact calls_forall_append hh (by simpa [CallWithin] using chunk_within hJ hne)
  cut := by
    rintro x e w h r w₁ - ⟨hJ, hh⟩ hne - -
    exact ⟨fun h0 => absurd rfl h0, calls_forall_append hh (by simp [CallWithin])⟩

/-- A round keeps within the export. -/
theorem round_inBounds (hE : 0 ≤ c.mem.ctx.exportsize.toInt)
    (hc : c.x.Ok cfg c.mem.ctx.minimumBlockSize) (hx : c.x.Within c.mem.ctx)
    (hq : requestAt env c = some q) (hu : Unwrapped c.mem.ctx q) :
    wp env (serveIn cfg fuel c.mem c.x) (fun o _ _ h => RoundWithin c.mem.ctx o h) c.mem c.env := by
  have hrange : Accepted c.mem.ctx q → (q.stop : ℤ) ≤ c.mem.ctx.exportsize.toInt :=
    fun h => stop_le_exportsize hE h.inRange (hu h)
  have hhead : ∀ e ∈ calls (headerAt env c q), CallWithin c.mem.ctx e := by
    simp [headerAt, CallWithin]
  have H : RoundRules env cfg c.mem.ctx.minimumBlockSize c q
      (fun o _ _ h => RoundWithin c.mem.ctx o h) (fun x _ h => x.Within c.mem.ctx ∧
      ∀ e ∈ calls h, CallWithin c.mem.ctx e) (fun x _ _ h => x.Within c.mem.ctx ∧
      ∀ e ∈ calls h, CallWithin c.mem.ctx e) :=
    { readLoop := fun _ => within_read_rules
      readRefused := by
        rintro - - k w₁ -
        exact ⟨hx, calls_forall_append hhead (by simp [CallWithin])⟩
      readAccepted := by
        rintro ht hr - k w₁ -
        exact ⟨accept_within (hrange (.inl ⟨ht, hr⟩)),
          calls_forall_append hhead (by simp [CallWithin])⟩
      readZero := fun _ _ _ => ⟨hhead, by simp⟩
      writeLoop := fun _ => within_write_rules
      writeRefused := fun _ _ => ⟨hx, hhead⟩
      writeAccepted := fun ht hr _ => ⟨accept_within (hrange (.inr ⟨ht, hr⟩)), hhead⟩
      writeZero := fun _ _ _ => ⟨hhead, by simp⟩
      disc := fun _ => ⟨hhead, by simp⟩
      flush := by
        rintro - p r w₁ k w₂ - - - -
        exact ⟨calls_forall_append hhead (by simp [CallWithin]), by rintro x' ⟨⟩; exact hx⟩
      flushNull := fun _ _ => ⟨hhead, by simp⟩
      other := by
        rintro - - - - k w₁ -
        exact ⟨calls_forall_append hhead (by simp [CallWithin]), by rintro x' ⟨⟩; exact hx⟩ }
  exact H.round hq (fun _ _ _ _ hJ => ⟨hJ.2, by simp⟩) (fun _ _ _ _ _ hJ => ⟨hJ.2, by simp⟩) hc

/-- The blocks left by a READ that was cut short lie in the export, at every head of a run in
which no request that is accepted wraps round. -/
theorem AtRequest.within (hE : 0 ≤ s.ctx.exportsize.toInt)
    (h : AtRequest env cfg fuel (fun c => ∀ q, requestAt env c = some q → Unwrapped c.mem.ctx q) s w
      c) :
    c.x.Within s.ctx := by
  refine h.inv (fun x _ => x.Within s.ctx) (fun h0 => absurd rfl h0) ?_
  rintro c rfl hc hok hx x' hx'
  obtain ⟨q, hq⟩ := requestAt_of_next hx'
  exact (round_inBounds hE hc hx hq (hok q hq)).2 x' hx'

/-! ### Every request of a run -/

/-- **No access outside the export**: in every run in which no request that is accepted wraps
round, the bounds are kept in handling a request if and only if it does not wrap round if it
is accepted. -/
theorem no_access_outside_export (env : Env Call Resp σ) (cfg : Config) (fuel : ℕ)
    (s : Shared) (w : σ) (hE : 0 ≤ s.ctx.exportsize.toInt) (c : ReqHead σ)
    (h : AtRequest env cfg fuel
      (fun c => ∀ q, requestAt env c = some q → Unwrapped c.mem.ctx q) s w c)
    (q : NbdRequest) (hq : requestAt env c = some q) :
    InBounds s.ctx q (roundAt env cfg fuel c).trace ↔ Unwrapped s.ctx q := by
  have hx := h.within hE
  obtain ⟨rfl, hc⟩ := h.frame
  constructor
  · exact fun hb ha => stop_lt_of_le (hb.range ha)
  · exact fun hu => ⟨fun ha => stop_le_exportsize hE ha.inRange (hu ha),
      (round_inBounds hE hc hx hq hu).1⟩

namespace Sample

/-- The bounds are kept in reading the whole export. -/
theorem no_access_outside_export_whole :
    InBounds mem.ctx (ask NBD_CMD_READ 0 8) (roundAt (wire quiet) Sample.cfg 8
      (firstHead (wire quiet) Sample.cfg mem (client (ask NBD_CMD_READ 0 8).toBytes))).trace :=
  (no_access_outside_export (wire quiet) Sample.cfg 8 mem (client (ask NBD_CMD_READ 0 8).toBytes)
    (by decide +kernel) _ .refl _ (by decide +kernel)).mpr fun _ => by decide

/-- **A READ that wraps round is accepted**: the last two bytes of the address space, and the
first two of the export. -/
theorem access_outside_export :
    ¬ ∀ (σ : Type) (env : Env Call Resp σ) (cfg : Config) (fuel : ℕ) (s : Shared) (w : σ),
      0 ≤ s.ctx.exportsize.toInt → 1 ≤ s.ctx.minimumBlockSize → ∀ (c : ReqHead σ),
      AtRequest env cfg fuel (fun _ => True) s w c → ∀ q, requestAt env c = some q →
      InBounds s.ctx q (roundAt env cfg fuel c).trace := by
  intro h
  let q := ask NBD_CMD_READ (2 ^ 64 - 2) 4
  have hb :=
    h _ (wire quiet) Sample.cfg 8 mem (client q.toBytes) (by decide +kernel) (by decide) _ .refl
    q (by decide +kernel)
  exact absurd (hb.range (.inl ⟨rfl, by decide +kernel⟩)) (by decide +kernel)

end Sample

end LwNBD
