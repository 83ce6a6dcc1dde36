import LwNBD.Nbd.Bounds

/-!
# Progress

Whether the loops that serve a READ and a WRITE end. A chunk is of `bufferLen / blocksize` blocks.
Nothing checks the block size: `nbdify_context`, which would ask the plugin for it, is not called,
so it is the zero the loader left; and if it were, the plugin's could be more than the buffer. With
`0` an accepted request divides by zero. With blocks longer than the buffer it is served in chunks
of no blocks, for ever.

## The model

* `readEntry`, `writeEntry` — control at the head of the loop that serves a request; `InLoop` —
  what its variables are at the head, in any iteration.

## What is proved

* `run_read`, `run_write` — the rest of a round is the loop from there.
* `readChunk_advances`, `writeChunk_advances` — an iteration whose calls succeed leaves what
  `Vars.advance` says.
* `inLoop_paced` — in every iteration, chunks are not empty while blocks remain.
* `progress_iff` — there is progress in serving a request if and only if it is not accepted, or
  blocks fit the buffer, or it is of less than one block, and blocks have bytes.
-/

namespace LwNBD

open Resumption

variable {σ : Type} (env : Env Call Resp σ) (cfg : Config) {fuel : ℕ} {s : Shared} {w : σ}
variable (c : ReqHead σ) (q : NbdRequest)

/-! ### Control in the loops -/

/-- The variables with which the loop is entered. -/
def entryVars : Vars :=
  if Accepted c.mem.ctx q then (varsAt env c).accept cfg c.mem.ctx.minimumBlockSize q
    else varsAt env c

/-- The reply to a READ, which is sent before its loop. -/
def readReply : Call :=
  .send c.mem.ctx.sock .reply
    (simpleReply (if Accepted c.mem.ctx q then NBD_SUCCESS else NBD_EIO) q.handle)
    (entryVars env cfg c q).sendflag

/-- Control at the head of the loop of a READ, for the first time. -/
def readEntry : Head Vars Shared σ :=
  ⟨entryVars env cfg c q, c.mem, (env (envAt env c q) (readReply env cfg c q)).2⟩

/-- Control at the head of the loop of a WRITE, for the first time. -/
def writeEntry : Head (Vars × UInt32) Shared σ :=
  ⟨(entryVars env cfg c q, writeError c.mem.ctx q), c.mem, envAt env c q⟩

/-- Control is at the head of the loop of a READ. -/
def AtRead : Head Vars Shared σ → Prop :=
  Reaches env (readChunk cfg c.mem.ctx.minimumBlockSize) (fun _ => True) (readEntry env cfg c q)

/-- Control is at the head of the loop of a WRITE. -/
def AtWrite : Head (Vars × UInt32) Shared σ → Prop :=
  Reaches env (writeChunk cfg c.mem.ctx.minimumBlockSize) (fun _ => True) (writeEntry env cfg c q)

/-- The variables in the loops: these are, in some iteration of the loop that serves the request,
if it is entered. -/
inductive InLoop : Vars → Prop where
  /-- The loop of a READ. -/
  | read {y : Head Vars Shared σ} : q.type = NBD_CMD_READ → AtRead env cfg c q y → InLoop y.x
  /-- The loop of a WRITE. -/
  | write {y : Head (Vars × UInt32) Shared σ} : q.type = NBD_CMD_WRITE →
      AtWrite env cfg c q y → InLoop y.x.1

variable {env cfg c q} {ctx : ContextNbd} {x : Vars} {blocksize : UInt32}

variable (cfg fuel) in
/-- The rest of a READ's round is its loop. -/
theorem run_read (hq : requestAt env c = some q) (ht : q.type = NBD_CMD_READ)
    (hb : Accepted c.mem.ctx q → c.mem.ctx.minimumBlockSize ≠ 0) :
    let y := readEntry env cfg c q
    let z := (Prog.loop fuel (readChunk cfg c.mem.ctx.minimumBlockSize) y.x).run env y.mem y.env
    (roundAt env cfg fuel c).out = z.out ∧ (roundAt env cfg fuel c).trace = headerAt env c q ++
      ⟨readReply env cfg c q, (env (envAt env c q) (readReply env cfg c q)).1⟩ :: z.trace := by
  intro y z
  refine wp_round_read (Q := fun o _ _ h => o = z.out ∧ h = headerAt env c q ++
    ⟨readReply env cfg c q, (env (envAt env c q) (readReply env cfg c q)).1⟩ :: z.trace) hq ht ?_
  -- the reply that is sent is `readReply`, and the loop is entered in what it leaves
  have hgo {e : Call} {k : Resp e} {w₁ : σ} {x : Vars} (hreply : readReply env cfg c q = e)
      (hx : entryVars env cfg c q = x) (hk : env (envAt env c q) e = (k, w₁)) :
      wp env (Prog.loop fuel (readChunk cfg c.mem.ctx.minimumBlockSize) x)
        (fun o _ _ h => o = z.out ∧ headerAt env c q ++ ([⟨e, k⟩] ++ h) = headerAt env c q ++
          ⟨readReply env cfg c q, (env (envAt env c q) (readReply env cfg c q)).1⟩ :: z.trace) c.mem
          w₁ := by
    have hw : y.env = w₁ := by
      show (env (envAt env c q) (readReply env cfg c q)).2 = w₁
      rw [hreply, hk]
    have hz : z = (Prog.loop fuel (readChunk cfg c.mem.ctx.minimumBlockSize) x).run env c.mem
        w₁ := by
      rw [← hw, ← hx]
      rfl
    rw [hreply, hk, hz]
    exact ⟨rfl, rfl⟩
  by_cases hacc : Accepted c.mem.ctx q
  · have hx : entryVars env cfg c q = (varsAt env c).accept cfg c.mem.ctx.minimumBlockSize q :=
      if_pos hacc
    refine wp_cmdRead_accepted ((accepted_read ht).mp hacc) (hb hacc) fun k w₁ hk => hgo ?_ hx hk
    rw [readReply, hx, if_pos hacc]
    rfl
  · have hx : entryVars env cfg c q = varsAt env c := if_neg hacc
    have hr : outOfRange c.mem.ctx.exportsize q = true := by
      rw [← Bool.not_eq_false]
      exact mt (accepted_read ht).mpr hacc
    refine wp_cmdRead_refused hr fun k w₁ hk => hgo ?_ hx hk
    rw [readReply, hx, if_neg hacc]

variable (cfg fuel) in
/-- The rest of a WRITE's round is its loop, and a reply. -/
theorem run_write (hq : requestAt env c = some q) (ht : q.type = NBD_CMD_WRITE)
    (hb : Accepted c.mem.ctx q → c.mem.ctx.minimumBlockSize ≠ 0) :
    let y := writeEntry env cfg c q
    let z := (Prog.loop fuel (writeChunk cfg c.mem.ctx.minimumBlockSize) y.x).run env y.mem y.env
    (∀ e, z.out = .halt e → (roundAt env cfg fuel c).out = .halt e ∧
      (roundAt env cfg fuel c).trace = headerAt env c q ++ z.trace) ∧
    (∀ v, z.out = .ret v → (roundAt env cfg fuel c).out = .ret (.next v.1)) := by
  intro y z
  refine wp_round_write (Q := fun o _ _ h => (∀ e, z.out = .halt e → o = .halt e ∧
    h = headerAt env c q ++ z.trace) ∧ (∀ v, z.out = .ret v → o = .ret (.next v.1))) hq ht ?_
  have hgo : wp env (Prog.loop fuel (writeChunk cfg c.mem.ctx.minimumBlockSize)
      (entryVars env cfg c q, writeError c.mem.ctx q)) (Post.thenReply env q.handle
        (Post.after (fun o _ _ h => (∀ e, z.out = .halt e → o = .halt e ∧
          h = headerAt env c q ++ z.trace) ∧ (∀ v, z.out = .ret v → o = .ret (.next v.1)))
          (headerAt env c q))) c.mem (envAt env c q) := by
    show Post.thenReply env q.handle _ z.out z.mem z.env z.trace
    cases hz : z.out with
    | ret v => exact fun k w₁ _ => ⟨fun e he => (by cases he), fun v' hv => by cases hv; rfl⟩
    | halt e => exact ⟨fun e' he => by cases he; exact ⟨rfl, rfl⟩, fun v hv => (by cases hv)⟩
  by_cases hacc : Accepted c.mem.ctx q
  · have hx : entryVars env cfg c q = (varsAt env c).accept cfg c.mem.ctx.minimumBlockSize q :=
      if_pos hacc
    have hr := (accepted_write ht).mp hacc
    refine wp_cmdWrite_accepted hr (hb hacc) ?_
    rw [hx, hr] at hgo
    exact hgo
  · have hx : entryVars env cfg c q = varsAt env c := if_neg hacc
    rw [hx] at hgo
    exact wp_cmdWrite_refused (mt (accepted_write ht).mpr hacc) hgo

/-! ### The iterations -/

/-- What is relied on: a chunk is of at least one block while blocks remain, if the request that is
accepted has blocks at all, that have bytes. -/
def Chunkable (cfg : Config) (ctx : ContextNbd) (q : NbdRequest) : Prop :=
  Accepted ctx q → ctx.minimumBlockSize ≠ 0 ∧
    (ctx.minimumBlockSize.toNat ≤ cfg.bufferLen ∨ q.count.toNat < ctx.minimumBlockSize.toNat)

theorem chunk_paced (h : x.Paced) (hne : x.sendflag ≠ 0) :
    0 < (x.chunk blocksize).bufblksz.toNat ∨ (x.chunk blocksize).blkremains.toNat = 0 := by
  rw [chunk_bufblksz, chunk_blkremains]
  rcases h hne with h | h <;> omega

/-- An accepted request that can be cut in chunks is. -/
theorem Chunkable.accept (hq : Chunkable cfg ctx q) (ha : Accepted ctx q) :
    (x.accept cfg ctx.minimumBlockSize q).Paced := by
  obtain ⟨hb, hle | hlt⟩ := hq ha
  · have h1 : 1 ≤ ctx.minimumBlockSize.toNat :=
      Nat.pos_of_ne_zero fun h0 => hb (UInt32.toNat_inj.mp h0)
    exact accept_paced h1 hle
  · intro _
    right
    rw [accept_blkremains]
    exact Nat.div_eq_of_lt hlt

theorem Chunkable.entry (hq : Chunkable cfg c.mem.ctx q) (hx : c.x.Paced) :
    (entryVars env cfg c q).Paced := by
  unfold entryVars
  split_ifs with hacc
  · exact hq.accept hacc
  · exact hx

theorem entryVars_ok (hc : c.x.Ok cfg c.mem.ctx.minimumBlockSize) :
    (entryVars env cfg c q).Ok cfg c.mem.ctx.minimumBlockSize := by
  unfold entryVars
  split_ifs
  · exact (varsAt_ok hc).accept
  · exact varsAt_ok hc

theorem readRules_true :
    ReadRules env s cfg blocksize (fun _ _ _ _ => True) (fun _ _ _ => True) where
  leave := by simp
  null := by simp
  sent := by simp
  cut := by simp
  again := by simp
  fail := by simp

theorem writeRules_true :
    WriteRules env s cfg blocksize (fun _ _ _ _ => True) (fun _ _ _ _ => True) where
  leave := by simp
  null := by simp
  written := by simp
  failed := by simp
  cut := by simp

/-- In every iteration the variables are in order, and chunks are not empty while blocks remain, if
this is so when the loop is entered. -/
theorem inLoop_paced (hc : c.x.Ok cfg c.mem.ctx.minimumBlockSize) (hx : InLoop env cfg c q x) :
    x.Ok cfg c.mem.ctx.minimumBlockSize ∧ ((entryVars env cfg c q).Paced → x.Paced) := by
  cases hx with
  | read _ hy =>
    refine (reaches_inv env (fun x s' _ => s' = c.mem ∧ x.Ok cfg c.mem.ctx.minimumBlockSize ∧
      ((entryVars env cfg c q).Paced → x.Paced)) ?_ hy ⟨rfl, entryVars_ok hc, id⟩).2
    rintro x _ w - ⟨rfl, hok, hpace⟩
    refine wp_mono env ?_ (readRules_true.round (h := []) hok trivial)
    rintro o s' w' h' hQ x' rfl
    exact ⟨hQ.1, hQ.2.1, fun hp => (hQ.2.2.2 (hpace hp)).1⟩
  | write _ hy =>
    refine (reaches_inv env (fun v s' _ => s' = c.mem ∧ v.1.Ok cfg c.mem.ctx.minimumBlockSize ∧
      ((entryVars env cfg c q).Paced → v.1.Paced)) ?_ hy ⟨rfl, entryVars_ok hc, id⟩).2
    rintro ⟨x, e⟩ _ w - ⟨rfl, hok, hpace⟩
    refine wp_mono env ?_ (writeRules_true.round (h := []) hok trivial)
    rintro o s' w' h' hQ v rfl
    exact ⟨hQ.1, hQ.2.1, fun hp => (hQ.2.2.2 (hpace hp)).1⟩

/-- A call to the plugin or the transport succeeds. -/
def Succeeded : Ev → Prop
  | ⟨.pread .., r⟩ => r.ret = 0
  | ⟨.pwrite .., r⟩ => r = (0 : ℤ)
  | ⟨.recv _ _ len, r⟩ => r.ret = len
  | ⟨.send _ _ buf _, k⟩ => k.1 = buf.length
  | _ => True

/-- An iteration of a READ whose calls succeed ends with the chunk transferred. -/
theorem readChunk_advances {y y' : Head Vars Shared σ}
    (hr : Round env (readChunk cfg blocksize) y y')
    (hs : ∀ e ∈ (y.round env (readChunk cfg blocksize)).trace, Succeeded e) :
    y.x.sendflag ≠ 0 ∧ ∃ d, y'.x = ((y.x.chunk blocksize).fill d).advance cfg := by
  have hround : wp env (readChunk cfg blocksize y.x) (fun o _ _ h => (∀ e ∈ h, Succeeded e) → ∀ x',
      o = .ret (.next x') → y.x.sendflag ≠ 0 ∧ ∃ d, x' = ((y.x.chunk blocksize).fill d).advance cfg)
      y.mem y.env := by
    by_cases h0 : y.x.sendflag = 0
    · exact wp_readChunk_done h0 (by simp)
    cases hp : y.mem.ctx.p with
    | none => exact wp_readChunk_none hp h0 (by simp)
    | some p =>
      refine wp_readChunk hp h0
        (fun r w₁ _ _ => wp_sendChunk (fun k w₂ _ _ _ x' hx' => ?_) (by simp))
        (fun r w₁ _ hne hall => ?_)
      · cases hx'
        exact ⟨h0, r.data, rfl⟩
      · exact absurd (hall _ (.head _)) hne
  exact hround hs y'.x hr.1

/-- An iteration of a WRITE whose calls succeed ends with the chunk transferred. -/
theorem writeChunk_advances {y y' : Head (Vars × UInt32) Shared σ} (hok : y.x.1.Ok cfg blocksize)
    (hr : Round env (writeChunk cfg blocksize) y y')
    (hs : ∀ e ∈ (y.round env (writeChunk cfg blocksize)).trace, Succeeded e) :
    y.x.1.sendflag ≠ 0 ∧ ∃ d, y'.x.1 = ((y.x.1.chunk blocksize).fill d).advance cfg := by
  have hround : wp env (writeChunk cfg blocksize y.x) (fun o _ _ h => (∀ e ∈ h, Succeeded e) → ∀ v,
      o = .ret (.next v) → y.x.1.sendflag ≠ 0 ∧
      ∃ d, v.1 = ((y.x.1.chunk blocksize).fill d).advance cfg) y.mem y.env := by
    obtain ⟨⟨x, error⟩, mem, e⟩ := y
    by_cases h0 : x.sendflag = 0
    · exact wp_writeChunk_done h0 (by simp)
    refine wp_writeChunk h0 (fun r w₁ _ _ => ?_) (fun r w₁ _ hne hall => ?_)
    · by_cases hp : ∃ p, mem.ctx.p = some p ∧ p.pwrite = true
      · obtain ⟨p, hp, hw⟩ := hp
        refine wp_pwriteChunk hp hw (fun k w₂ _ _ _ v hv => ?_) (fun k w₂ _ hne hall => ?_)
        · cases hv
          exact ⟨h0, r.data, rfl⟩
        · exact absurd (hall _ (.tail _ (.head _))) hne
      · exact wp_pwriteChunk_none (fun p hp' => by simpa using fun hw => hp ⟨p, hp', hw⟩) (by simp)
    · have hret : r.ret = ((x.chunk blocksize).byteread.toNat : ℤ) := hall _ (.head _)
      exact absurd ((hok.chunk.received_iff r).mpr hret) hne
  exact hround hs y'.x hr.1

variable (env s w) in
/-- Both loops end, if chunks are not empty while blocks remain. -/
theorem loops_end {y : Vars} (error : UInt32) (hfuel : loopFuel cfg ≤ fuel)
    (hok : y.Ok cfg blocksize) (hpace : y.Paced) :
    ((Prog.loop fuel (readChunk cfg blocksize) y).run env s w).out ≠ .halt .fuel ∧
      ((Prog.loop fuel (writeChunk cfg blocksize) (y, error)).run env s w).out ≠ .halt .fuel := by
  have hlt := Nat.lt_of_lt_of_le hok.measure_lt hfuel
  have hread : ReadRules env s cfg blocksize (fun o _ _ _ => o ≠ .halt .fuel) (fun _ _ _ => True) :=
    { leave := by simp
      null := by simp
      sent := by simp
      cut := by simp
      again := by simp
      fail := by simp }
  have hwrite : WriteRules env s cfg blocksize (fun o _ _ _ => o ≠ .halt .fuel)
      (fun _ _ _ _ => True) :=
    { leave := by simp
      null := by simp
      written := by simp
      failed := by simp
      cut := by simp }
  exact ⟨hread.loop_total (h := []) hlt hok hpace trivial,
    hwrite.loop_total (h := []) hlt hok hpace trivial⟩

variable (env fuel s w) in
/-- When the loop of a WRITE goes wrong, a chunk was received. -/
theorem writeLoop_undefined {y : Vars} (error : UInt32) (hok : y.Ok cfg blocksize) :
    wp env (Prog.loop fuel (writeChunk cfg blocksize) (y, error))
    (fun o _ _ h => o = .halt .undefined → h ≠ [])
      s w := by
  have hwrite : WriteRules env s cfg blocksize (fun o _ _ h => o = .halt .undefined → h ≠ [])
      (fun _ _ _ _ => True) :=
    { leave := by simp
      null := by simp
      written := by simp
      failed := by simp
      cut := by simp }
  exact hwrite.loop (h := []) (by simp) fuel hok trivial

/-! ### A round -/

/-- A round leaves chunks that are not empty while blocks remain. -/
theorem round_paced (hc : c.x.Ok cfg c.mem.ctx.minimumBlockSize) (hx : c.x.Paced)
    (hq : requestAt env c = some q) (hcut : Chunkable cfg c.mem.ctx q) :
    wp env (serveIn cfg fuel c.mem c.x) (fun o _ _ _ => ∀ x', o = .ret (.next x') →
      x'.Paced) c.mem c.env := by
  have H : RoundRules env cfg c.mem.ctx.minimumBlockSize c q
      (fun o _ _ _ => ∀ x', o = .ret (.next x') → x'.Paced) (fun x _ _ => x.Paced)
      (fun x _ _ _ => x.Paced) :=
    { readLoop := fun _ =>
        { leave := by rintro x w h - hJ - x' ⟨⟩; exact hJ
          null := by simp
          sent := fun _ hJ hne _ _ _ _ _ => And.left (advance_measure hJ hne)
          cut := by
            rintro x w h p r w₁ k w₂ - hJ hne - - - z - - - x' ⟨⟩ -
            exact chunk_paced hJ hne
          again := fun _ hJ hne _ _ _ _ _ => chunk_paced hJ hne
          fail := by simp }
      readRefused := fun _ _ _ _ _ => hx
      readAccepted := fun ht hr _ _ _ _ => hcut.accept (.inl ⟨ht, hr⟩)
      readZero := by simp
      writeLoop := fun _ =>
        { leave := by rintro x e w h - hJ - k w₁ - x' ⟨⟩; exact hJ
          null := by simp
          written := fun _ hJ hne _ _ _ _ _ _ => And.left (advance_measure hJ hne)
          failed := fun _ _ _ _ _ _ _ _ _ hne => absurd rfl hne
          cut := fun _ _ _ _ _ hne => absurd rfl hne }
      writeRefused := fun _ _ => hx
      writeAccepted := fun ht hr _ => hcut.accept (.inr ⟨ht, hr⟩)
      writeZero := by simp
      disc := by simp
      flush := by rintro - p r w₁ k w₂ - - - - x' ⟨⟩; exact hx
      flushNull := by simp
      other := by rintro - - - - k w₁ - x' ⟨⟩; exact hx }
  exact H.round hq (by simp) (by simp) hc

/-- At every head of a run in which each request can be cut in chunks, what is left to be served
can. -/
theorem AtRequest.paced
    (h : AtRequest env cfg fuel (fun c => ∀ q, requestAt env c = some q → Chunkable cfg c.mem.ctx q)
      s w c) :
    c.x.Paced := by
  refine h.inv (fun x _ => x.Paced) (fun h0 => absurd rfl h0) ?_
  rintro c rfl hc hok hx x' hx'
  obtain ⟨q, hq⟩ := requestAt_of_next hx'
  exact round_paced hc hx hq (hok q hq) x' hx'

/-! ### Every READ and WRITE -/

variable (env cfg c q) in
/-- There is progress in serving a READ or WRITE. -/
structure Progress : Prop where
  /-- Nothing is divided by zero: the round would stop there, before any call for the request. -/
  divides : ∀ fuel, ¬ ((roundAt env cfg fuel c).out = .halt .undefined ∧
    (roundAt env cfg fuel c).trace = headerAt env c q)
  /-- In every iteration the chunk has a block, while blocks remain. -/
  chunk : ∀ x, InLoop env cfg c q x → x.sendflag ≠ 0 → 0 < x.blkremains.toNat →
    0 < (x.chunk c.mem.ctx.minimumBlockSize).bufblksz.toNat
  /-- Every iteration of a READ whose calls succeed moves a block. -/
  read : ∀ y y', q.type = NBD_CMD_READ → AtRead env cfg c q y →
    Round env (readChunk cfg c.mem.ctx.minimumBlockSize) y y' →
    (∀ e ∈ (y.round env (readChunk cfg c.mem.ctx.minimumBlockSize)).trace, Succeeded e) →
    0 < y.x.blkremains.toNat → y'.x.blkremains.toNat < y.x.blkremains.toNat
  /-- Every iteration of a WRITE whose calls succeed moves a block. -/
  write : ∀ y y', q.type = NBD_CMD_WRITE → AtWrite env cfg c q y →
    Round env (writeChunk cfg c.mem.ctx.minimumBlockSize) y y' →
    (∀ e ∈ (y.round env (writeChunk cfg c.mem.ctx.minimumBlockSize)).trace, Succeeded e) →
    0 < y.x.1.blkremains.toNat → y'.x.1.blkremains.toNat < y.x.1.blkremains.toNat
  /-- The loop ends. -/
  ends : ∃ N, ∀ fuel ≥ N, (roundAt env cfg fuel c).out ≠ .halt .fuel

/-- A chunk that has a block is so much less to be served. -/
theorem advance_lt {d : Bytes} (hr : 0 < x.blkremains.toNat)
    (hb : 0 < (x.chunk blocksize).bufblksz.toNat) :
    (((x.chunk blocksize).fill d).advance cfg).blkremains.toNat < x.blkremains.toNat := by
  have hle : ((x.chunk blocksize).fill d).bufblksz.toNat ≤
      ((x.chunk blocksize).fill d).blkremains.toNat := by
    rw [fill_bufblksz, chunk_bufblksz, fill_blkremains, chunk_blkremains]
    exact Nat.min_le_left _ _
  rw [advance_blkremains cfg hle, fill_blkremains, chunk_blkremains, fill_bufblksz]
  omega

theorem Progress.of_chunkable (hc : c.x.Ok cfg c.mem.ctx.minimumBlockSize) (hx : c.x.Paced)
    (hq : requestAt env c = some q) (ht : q.type = NBD_CMD_READ ∨ q.type = NBD_CMD_WRITE)
    (hcut : Chunkable cfg c.mem.ctx q) : Progress env cfg c q := by
  have hb : Accepted c.mem.ctx q → c.mem.ctx.minimumBlockSize ≠ 0 := fun hacc => (hcut hacc).1
  have hentry : (entryVars env cfg c q).Paced := hcut.entry hx
  have hchunk (x : Vars) (hin : InLoop env cfg c q x) (hne : x.sendflag ≠ 0)
      (hr : 0 < x.blkremains.toNat) : 0 < (x.chunk c.mem.ctx.minimumBlockSize).bufblksz.toNat := by
    rcases chunk_paced ((inLoop_paced hc hin).2 hentry) hne with h | h
    · exact h
    · rw [chunk_blkremains] at h
      omega
  refine ⟨fun fuel => ?_, hchunk, fun y y' ht hy hround hs hr => ?_,
    fun y y' ht hy hround hs hr => ?_, loopFuel cfg, fun fuel hfuel => ?_⟩
  · rintro ⟨hout, htrace⟩
    rcases ht with ht | ht
    · obtain ⟨-, htr⟩ := run_read cfg fuel hq ht hb
      rw [htrace] at htr
      simpa using congrArg List.length htr
    · obtain ⟨hhalt, hret⟩ := run_write cfg fuel hq ht hb
      have hok : (entryVars env cfg c q).Ok cfg c.mem.ctx.minimumBlockSize := entryVars_ok hc
      have hwrong := writeLoop_undefined env fuel c.mem (envAt env c q) (writeError c.mem.ctx q) hok
      cases hz :
        ((Prog.loop fuel (writeChunk cfg c.mem.ctx.minimumBlockSize) (writeEntry env cfg c q).x).run
        env
          c.mem (envAt env c q)).out with
      | ret v => exact absurd ((hret v hz).symm.trans hout) (by simp)
      | halt e =>
        obtain ⟨ho, htr⟩ := hhalt e hz
        cases ho.symm.trans hout
        exact hwrong hz (List.append_right_eq_self.mp (htr.symm.trans htrace))
  · obtain ⟨hne, d, hd⟩ := readChunk_advances hround hs
    rw [hd]
    exact advance_lt hr (hchunk y.x (.read ht hy) hne hr)
  · obtain ⟨hne, d, hd⟩ := writeChunk_advances (inLoop_paced hc (.write ht hy)).1 hround hs
    rw [hd]
    exact advance_lt hr (hchunk y.x.1 (.write ht hy) hne hr)
  · rcases ht with ht | ht
    · obtain ⟨hout, -⟩ := run_read cfg fuel hq ht hb
      rw [hout]
      exact (loops_end env c.mem _ NBD_SUCCESS hfuel (entryVars_ok hc) hentry).1
    · obtain ⟨hhalt, hret⟩ := run_write cfg fuel hq ht hb
      have hends :=
        (loops_end env c.mem (envAt env c q) (writeError c.mem.ctx q) hfuel
        (entryVars_ok hc) hentry).2
      cases hz :
        ((Prog.loop fuel (writeChunk cfg c.mem.ctx.minimumBlockSize) (writeEntry env cfg c q).x).run
        env
          c.mem (envAt env c q)).out with
      | ret v => simp [hret v hz]
      | halt e =>
        rw [(hhalt e hz).1]
        rintro ⟨⟩
        exact hends hz

/-- An accepted request divides by zero if blocks have no bytes. -/
theorem round_divides (hq : requestAt env c = some q) (ha : Accepted c.mem.ctx q)
    (hb : c.mem.ctx.minimumBlockSize = 0) :
    (roundAt env cfg fuel c).out = .halt .undefined ∧
    (roundAt env cfg fuel c).trace = headerAt env c q := by
  have hround : wp env (serveRequest cfg fuel c.mem.ctx.minimumBlockSize c.x)
      (fun o _ _ h => o = .halt .undefined ∧ h = headerAt env c q) c.mem c.env := by
    rcases ha with ⟨ht, hr⟩ | ⟨ht, hr⟩
    · exact wp_round_read hq ht (wp_cmdRead_zero hr hb ⟨rfl, List.append_nil _⟩)
    · exact wp_round_write hq ht (wp_cmdWrite_zero hr hb ⟨rfl, List.append_nil _⟩)
  exact hround

variable (env) in
/-- Its first chunk is empty if blocks do not fit the buffer. -/
theorem entry_empty (ht : q.type = NBD_CMD_READ ∨ q.type = NBD_CMD_WRITE)
    (ha : Accepted c.mem.ctx q) (hlt : cfg.bufferLen < c.mem.ctx.minimumBlockSize.toNat)
    (hle : c.mem.ctx.minimumBlockSize.toNat ≤ q.count.toNat) :
    InLoop env cfg c q (entryVars env cfg c q) ∧ (entryVars env cfg c q).sendflag ≠ 0 ∧
      0 < (entryVars env cfg c q).blkremains.toNat ∧
      ((entryVars env cfg c q).chunk c.mem.ctx.minimumBlockSize).bufblksz.toNat = 0 := by
  have hx : entryVars env cfg c q = (varsAt env c).accept cfg c.mem.ctx.minimumBlockSize q :=
    if_pos ha
  refine ⟨?_, ?_, ?_, ?_⟩
  · rcases ht with ht | ht
    · exact .read ht .refl
    · exact .write ht .refl
  · rw [hx, accept_sendflag]
    decide
  · rw [hx, accept_blkremains]
    exact Nat.div_pos hle (by omega)
  · rw [hx, chunk_bufblksz, accept_bufblksz, Nat.div_eq_of_lt hlt, Nat.min_zero]

/-- **Progress for every block size.** In every run in which each request can be cut in chunks,
there is progress in serving a READ or WRITE if and only if it can: it is not accepted, or blocks
have bytes and one fits the buffer, or the request is of less than one. -/
theorem progress_iff (env : Env Call Resp σ) (cfg : Config) (fuel : ℕ) (s : Shared)
    (w : σ) (c : ReqHead σ) (h : AtRequest env cfg fuel (fun c => ∀ q, requestAt env c = some q →
      Chunkable cfg c.mem.ctx q) s w c)
    (q : NbdRequest) (hq : requestAt env c = some q)
    (ht : q.type = NBD_CMD_READ ∨ q.type = NBD_CMD_WRITE) :
    Progress env cfg c q ↔ Chunkable cfg s.ctx q := by
  have hx := h.paced
  obtain ⟨rfl, hc⟩ := h.frame
  constructor
  · intro hprog ha
    have hb : c.mem.ctx.minimumBlockSize ≠ 0 :=
      fun hb => hprog.divides fuel (round_divides hq ha hb)
    refine ⟨hb, ?_⟩
    by_contra hnot
    rw [not_or, Nat.not_le, Nat.not_lt] at hnot
    obtain ⟨hin, hne, hr, hempty⟩ := entry_empty env ht ha hnot.1 hnot.2
    have := hprog.chunk _ hin hne hr
    omega
  · exact Progress.of_chunkable hc hx hq ht

namespace Sample

/-- There is progress in reading the export. -/
theorem progress_iff_whole : Progress (wire quiet) Sample.cfg
    (firstHead (wire quiet) Sample.cfg mem (client (ask NBD_CMD_READ 0 8).toBytes))
    (ask NBD_CMD_READ 0 8) :=
  (progress_iff (wire quiet) Sample.cfg 8 mem (client (ask NBD_CMD_READ 0 8).toBytes) _ .refl
    (ask NBD_CMD_READ 0 8) (by decide +kernel) (.inl rfl)).mpr fun _ =>
    ⟨by decide, .inl (by decide)⟩

/-- The server as the loader leaves it: `nbdify_context` has not run. -/
def unsized : Shared := ⟨{ Sample.ctx with minimumBlockSize := 0 }, .empty⟩

/-- **A READ of a server that has no block size divides by zero.** -/
theorem no_progress :
    ¬ ∀ (σ : Type) (env : Env Call Resp σ) (cfg : Config) (fuel : ℕ) (s :
      Shared) (w : σ) (c : ReqHead σ), AtRequest env cfg fuel (fun _ => True) s w c →
      ∀ q, requestAt env c = some q → q.type = NBD_CMD_READ ∨ q.type = NBD_CMD_WRITE →
      Progress env cfg c q := by
  intro h
  have hprog :=
    h _ (wire quiet) Sample.cfg 8 unsized (client (ask NBD_CMD_READ 0 4).toBytes) _ .refl
    (ask NBD_CMD_READ 0 4) (by decide +kernel) (.inl rfl)
  exact hprog.divides 8 (by decide +kernel)

end Sample

end LwNBD
