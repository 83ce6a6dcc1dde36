import LwNBD.Nbd.Loops

/-!
# The request loop

Control at the head of the request loop of `transmission_phase`, and the round from
there. A head has the loop's variables, the shared memory and the environment; what the
properties of the transmission phase say of "every reachable state" they say of every
head that is reached (`AtRequest`), against any environment.

## What is proved

* `wp_round_some` — a round reads a request, and handles it; one rule for each type.
* `RoundRules.round` — the rule for a round, given the cases of its loops.
* `AtRequest.frame` — at every head that is reached, the shared memory is as on entry and
  the variables are in order.
* `run_transmissionPhase` — `transmission_phase` is the loop from the first head.
* `round_transmits`, `transmissionPhase_transmits` — what calls are made.
-/

namespace LwNBD

open Resumption

variable {σ : Type} (env : Env Call Resp σ) {cfg : Config} {fuel : ℕ} {blocksize : UInt32}

/-- The export can be written. -/
def Writable (ctx : ContextNbd) : Prop := ∃ p, ctx.p = some p ∧ p.pwrite = true

/-- Control at the head of the request loop. -/
abbrev ReqHead (σ : Type) := Head Vars Shared σ

/-! ### Reading a request -/

/-- The answer to the receive at a head. -/
def recvAt (c : ReqHead σ) : Recvd 28 × σ := env c.env (.recv c.mem.ctx.sock .request 28)

/-- The memory of `request` after it. -/
def rawAt (c : ReqHead σ) : Bytes := store c.x.request (recvAt env c).1.data

/-- The request that is read at a head; none when the function returns instead. -/
def requestAt (c : ReqHead σ) : Option NbdRequest :=
  let q := NbdRequest.ofBytes (rawAt env c)
  if asSize (recvAt env c).1.ret < 28 ∨ q.magic ≠ NBD_REQUEST_MAGIC then none else some q

/-- The variables with the request that was read. -/
def varsAt (c : ReqHead σ) : Vars := { c.x with request := NbdRequest.hostOrder (rawAt env c) }

/-- What is done before a request is handled. -/
def headerAt (c : ReqHead σ) (q : NbdRequest) : List Ev :=
  [⟨.recv c.mem.ctx.sock .request 28, (recvAt env c).1⟩,
    ⟨.note (.index .nbdCommands q.type.toNat), ()⟩]

/-- The environment when a request is handled. -/
def envAt (c : ReqHead σ) (q : NbdRequest) : σ :=
  (env (recvAt env c).2 (.note (.index .nbdCommands q.type.toNat))).2

variable {env} {c : ReqHead σ}

@[simp] theorem varsAt_sendflag : (varsAt env c).sendflag = c.x.sendflag := rfl
@[simp] theorem varsAt_blkremains : (varsAt env c).blkremains = c.x.blkremains := rfl
@[simp] theorem varsAt_bufblksz : (varsAt env c).bufblksz = c.x.bufblksz := rfl
@[simp] theorem varsAt_offset : (varsAt env c).offset = c.x.offset := rfl
@[simp] theorem varsAt_retry : (varsAt env c).retry = c.x.retry := rfl
@[simp] theorem varsAt_nbdBuffer : (varsAt env c).nbdBuffer = c.x.nbdBuffer := rfl

theorem varsAt_ok (h : c.x.Ok cfg blocksize) : (varsAt env c).Ok cfg blocksize :=
  ⟨⟨h.bytes, h.fits, h.buffer⟩, h.retry_le,
    NbdRequest.length_hostOrder (by simp [rawAt, h.request])⟩

/-- A round that reads no request: the function returns. -/
theorem wp_round_none {Q : Post Shared Call Resp σ (Ctl Vars ℤ)} (hq : requestAt env c = none)
    (hQ : Q (.ret (.done (-1))) c.mem (recvAt env c).2
      [⟨.recv c.mem.ctx.sock .request 28, (recvAt env c).1⟩]) :
    wp env (serveRequest cfg fuel blocksize c.x) Q c.mem c.env := by
  simp only [serveRequest, readRequest, wp_bind, wp_ctxNow, Post.seq_ret,
    Post.after_nil, wp_syncRecv]
  unfold requestAt rawAt recvAt at *
  by_cases hsize : asSize (env c.env (.recv c.mem.ctx.sock .request 28)).1.ret < 28
  · simpa [hsize] using hQ
  · rw [if_neg hsize]
    split_ifs with hmagic
    · simpa using hQ
    · simp [hsize, hmagic] at hq

theorem wp_round_some {Q : Post Shared Call Resp σ (Ctl Vars ℤ)} {q : NbdRequest}
    (hq : requestAt env c = some q) (h : wp env (handleRequest cfg fuel blocksize (varsAt env c) q)
      (Q.after [⟨.recv c.mem.ctx.sock .request 28, (recvAt env c).1⟩]) c.mem (recvAt env c).2) :
    wp env (serveRequest cfg fuel blocksize c.x) Q c.mem c.env := by
  simp only [serveRequest, readRequest, wp_bind, wp_ctxNow, Post.seq_ret,
    Post.after_nil, wp_syncRecv]
  unfold requestAt at hq
  dsimp only at hq
  split_ifs at hq with hbad
  obtain ⟨hsize, hmagic⟩ := not_or.mp hbad
  simp only [recvAt, rawAt] at hsize hmagic
  cases hq
  rw [if_neg hsize, if_neg hmagic, wp_pure, Post.after_apply, Post.seq_ret, List.append_nil]
  exact h

section Types

variable {Q : Post Shared Call Resp σ (Ctl Vars ℤ)} {q : NbdRequest}

theorem wp_round_read (hq : requestAt env c = some q) (ht : q.type = NBD_CMD_READ)
    (h : wp env (cmdRead cfg fuel blocksize (varsAt env c) q) (Q.after (headerAt env c q)) c.mem
      (envAt env c q)) :
    wp env (serveRequest cfg fuel blocksize c.x) Q c.mem c.env := by
  refine wp_round_some hq ?_
  rw [handleRequest, wp_bind, wp_note, Post.seq_ret, Post.after_after, if_pos ht]
  exact h

theorem wp_round_write (hq : requestAt env c = some q) (ht : q.type = NBD_CMD_WRITE)
    (h : wp env (cmdWrite cfg fuel blocksize (varsAt env c) q) (Q.after (headerAt env c q)) c.mem
      (envAt env c q)) :
    wp env (serveRequest cfg fuel blocksize c.x) Q c.mem c.env := by
  have hread : q.type ≠ NBD_CMD_READ := by
    rw [ht]
    decide
  refine wp_round_some hq ?_
  rw [handleRequest, wp_bind, wp_note, Post.seq_ret, Post.after_after, if_neg hread, if_pos ht]
  exact h

theorem wp_round_disc (hq : requestAt env c = some q) (ht : q.type = NBD_CMD_DISC)
    (h : Q (.ret (.done 0)) { c.mem with ctx := { c.mem.ctx with state := .abort } } (envAt env c q)
      (headerAt env c q)) :
    wp env (serveRequest cfg fuel blocksize c.x) Q c.mem c.env := by
  have hread : q.type ≠ NBD_CMD_READ := by
    rw [ht]
    decide
  have hwrite : q.type ≠ NBD_CMD_WRITE := by
    rw [ht]
    decide
  refine wp_round_some hq ?_
  rw [handleRequest, wp_bind, wp_note, Post.seq_ret, Post.after_after, if_neg hread,
    if_neg hwrite, if_pos ht]
  exact wp_cmdDisc h

theorem wp_round_flush (hq : requestAt env c = some q) (ht : q.type = NBD_CMD_FLUSH)
    (h : wp env (cmdFlush (varsAt env c) q) (Q.after (headerAt env c q)) c.mem (envAt env c q)) :
    wp env (serveRequest cfg fuel blocksize c.x) Q c.mem c.env := by
  have hread : q.type ≠ NBD_CMD_READ := by
    rw [ht]
    decide
  have hwrite : q.type ≠ NBD_CMD_WRITE := by
    rw [ht]
    decide
  have hdisc : q.type ≠ NBD_CMD_DISC := by
    rw [ht]
    decide
  refine wp_round_some hq ?_
  rw [handleRequest, wp_bind, wp_note, Post.seq_ret, Post.after_after, if_neg hread,
    if_neg hwrite, if_neg hdisc, if_pos ht]
  exact h

theorem wp_round_other (hq : requestAt env c = some q) (hread : q.type ≠ NBD_CMD_READ)
    (hwrite : q.type ≠ NBD_CMD_WRITE) (hdisc : q.type ≠ NBD_CMD_DISC)
    (hflush : q.type ≠ NBD_CMD_FLUSH)
    (h : ∀ k w₁, env (envAt env c q)
      (.send c.mem.ctx.sock .reply (simpleReply NBD_EINVAL q.handle) 0) = (k, w₁) →
      Q (.ret (.next (varsAt env c))) c.mem w₁ (headerAt env c q ++ [⟨.send .., k⟩])) :
    wp env (serveRequest cfg fuel blocksize c.x) Q c.mem c.env := by
  refine wp_round_some hq ?_
  rw [handleRequest, wp_bind, wp_note, Post.seq_ret, Post.after_after, if_neg hread,
    if_neg hwrite, if_neg hdisc, if_neg hflush]
  exact wp_cmdDefault h

end Types

section Rules

variable (env) (cfg) (blocksize) (c)

/-- The cases of a round that reads the request `q`, for a postcondition `Q` and invariants
`JR`, `JW` of the loops that serve a READ and a WRITE. -/
structure RoundRules (q : NbdRequest) (Q : Post Shared Call Resp σ (Ctl Vars ℤ))
    (JR : Vars → σ → List Ev → Prop) (JW : Vars → UInt32 → σ → List Ev → Prop) : Prop where
  /-- The loop of a READ. -/
  readLoop : q.type = NBD_CMD_READ → ReadRules env c.mem cfg blocksize Q JR
  /-- A READ is refused. -/
  readRefused : q.type = NBD_CMD_READ → outOfRange c.mem.ctx.exportsize q = true → ∀ {k w₁},
    env (envAt env c q) (.send c.mem.ctx.sock .reply (simpleReply NBD_EIO q.handle) c.x.sendflag) =
    (k, w₁) →
    JR (varsAt env c) w₁ (headerAt env c q ++ [⟨.send .., k⟩])
  /-- A READ is accepted. -/
  readAccepted : q.type = NBD_CMD_READ → outOfRange c.mem.ctx.exportsize q = false →
    blocksize ≠ 0 → ∀ {k w₁},
    env (envAt env c q) (.send c.mem.ctx.sock .reply (simpleReply NBD_SUCCESS q.handle) MSG_MORE) =
      (k, w₁) →
    JR ((varsAt env c).accept cfg blocksize q) w₁ (headerAt env c q ++ [⟨.send .., k⟩])
  /-- A READ is accepted without a block size. -/
  readZero : q.type = NBD_CMD_READ → outOfRange c.mem.ctx.exportsize q = false → blocksize = 0 →
    Q (.halt .undefined) c.mem (envAt env c q) (headerAt env c q)
  /-- The loop of a WRITE. -/
  writeLoop : q.type = NBD_CMD_WRITE →
    WriteRules env c.mem cfg blocksize (Post.thenReply env q.handle Q) JW
  /-- A WRITE is refused. -/
  writeRefused : q.type = NBD_CMD_WRITE → writeError c.mem.ctx q ≠ NBD_SUCCESS →
    JW (varsAt env c) (writeError c.mem.ctx q) (envAt env c q) (headerAt env c q)
  /-- A WRITE is accepted. -/
  writeAccepted : q.type = NBD_CMD_WRITE → writeError c.mem.ctx q = NBD_SUCCESS → blocksize ≠ 0 →
    JW ((varsAt env c).accept cfg blocksize q) NBD_SUCCESS (envAt env c q) (headerAt env c q)
  /-- A WRITE is accepted without a block size. -/
  writeZero : q.type = NBD_CMD_WRITE → writeError c.mem.ctx q = NBD_SUCCESS → blocksize = 0 →
    Q (.halt .undefined) c.mem (envAt env c q) (headerAt env c q)
  /-- A DISC. -/
  disc : q.type = NBD_CMD_DISC →
    Q (.ret (.done 0)) { c.mem with ctx := { c.mem.ctx with state := .abort } }
    (envAt env c q) (headerAt env c q)
  /-- A FLUSH. -/
  flush : q.type = NBD_CMD_FLUSH → ∀ {p r w₁ k w₂}, c.mem.ctx.p = some p → p.flush = true →
    env (envAt env c q) (.flush p c.mem.ctx.handle) = (r, w₁) →
    env w₁ (.send c.mem.ctx.sock .reply
      (simpleReply (if r = 0 then NBD_SUCCESS else NBD_EIO) q.handle) 0) = (k, w₂) →
    Q (.ret (.next (varsAt env c))) c.mem w₂ (headerAt env c q ++ [⟨.flush .., r⟩, ⟨.send .., k⟩])
  /-- A FLUSH of an export without `flush`. -/
  flushNull : q.type = NBD_CMD_FLUSH → (∀ p, c.mem.ctx.p = some p → p.flush = false) →
    Q (.halt .undefined) c.mem (envAt env c q) (headerAt env c q)
  /-- Any other request. -/
  other : q.type ≠ NBD_CMD_READ → q.type ≠ NBD_CMD_WRITE → q.type ≠ NBD_CMD_DISC →
    q.type ≠ NBD_CMD_FLUSH → ∀ {k w₁},
    env (envAt env c q) (.send c.mem.ctx.sock .reply (simpleReply NBD_EINVAL q.handle) 0) =
      (k, w₁) →
    Q (.ret (.next (varsAt env c))) c.mem w₁ (headerAt env c q ++ [⟨.send .., k⟩])

variable {env cfg blocksize c} {q : NbdRequest} {Q : Post Shared Call Resp σ (Ctl Vars ℤ)}
variable {JR : Vars → σ → List Ev → Prop} {JW : Vars → UInt32 → σ → List Ev → Prop}

/-- The rule for a round, given those for its loops. -/
theorem RoundRules.round_of (H : RoundRules env cfg blocksize c q Q JR JW)
    (hq : requestAt env c = some q) (hR : ∀ x w h, ReadRules env c.mem cfg blocksize Q JR →
      x.Ok cfg blocksize → (x = varsAt env c ∨ x = (varsAt env c).accept cfg blocksize q) →
      JR x w h → wp env (Prog.loop fuel (readChunk cfg blocksize) x) (Q.after h) c.mem w)
    (hW : ∀ x e w h, WriteRules env c.mem cfg blocksize (Post.thenReply env q.handle Q) JW →
      x.Ok cfg blocksize → (x = varsAt env c ∨ x = (varsAt env c).accept cfg blocksize q) →
      JW x e w h → wp env (Prog.loop fuel (writeChunk cfg blocksize) (x, e))
      ((Post.thenReply env q.handle Q).after h)
        c.mem w)
    (hc : c.x.Ok cfg blocksize) : wp env (serveRequest cfg fuel blocksize c.x) Q c.mem c.env := by
  have hx : (varsAt env c).Ok cfg blocksize := varsAt_ok hc
  by_cases hread : q.type = NBD_CMD_READ
  · refine wp_round_read hq hread ?_
    by_cases hr : outOfRange c.mem.ctx.exportsize q = true
    · refine wp_cmdRead_refused hr fun k w₁ hk => ?_
      rw [Post.after_after]
      exact hR _ _ _ (H.readLoop hread) hx (.inl rfl) (H.readRefused hread hr hk)
    rw [Bool.not_eq_true] at hr
    by_cases hb : blocksize = 0
    · refine wp_cmdRead_zero hr hb ?_
      rw [Post.after_apply, List.append_nil]
      exact H.readZero hread hr hb
    · refine wp_cmdRead_accepted hr hb fun k w₁ hk => ?_
      rw [Post.after_after]
      exact hR _ _ _ (H.readLoop hread) hx.accept (.inr rfl) (H.readAccepted hread hr hb hk)
  by_cases hwrite : q.type = NBD_CMD_WRITE
  · refine wp_round_write hq hwrite ?_
    by_cases hr : writeError c.mem.ctx q = NBD_SUCCESS
    · by_cases hb : blocksize = 0
      · refine wp_cmdWrite_zero hr hb ?_
        rw [Post.after_apply, List.append_nil]
        exact H.writeZero hwrite hr hb
      · refine wp_cmdWrite_accepted hr hb ?_
        rw [Post.thenReply_after]
        exact hW _ _ _ _ (H.writeLoop hwrite) hx.accept (.inr rfl) (H.writeAccepted hwrite hr hb)
    · refine wp_cmdWrite_refused hr ?_
      rw [Post.thenReply_after]
      exact hW _ _ _ _ (H.writeLoop hwrite) hx (.inl rfl) (H.writeRefused hwrite hr)
  by_cases hdisc : q.type = NBD_CMD_DISC
  · exact wp_round_disc hq hdisc (H.disc hdisc)
  by_cases hflush : q.type = NBD_CMD_FLUSH
  · refine wp_round_flush hq hflush ?_
    by_cases hp : ∃ p, c.mem.ctx.p = some p ∧ p.flush = true
    · obtain ⟨p, hp, hf⟩ := hp
      exact wp_cmdFlush hp hf fun r w₁ k w₂ hr hk => H.flush hflush hp hf hr hk
    · have hp' : ∀ p, c.mem.ctx.p = some p → p.flush = false := fun p hp' => by
        simpa using fun hf => hp ⟨p, hp', hf⟩
      refine wp_cmdFlush_none hp' ?_
      rw [Post.after_apply, List.append_nil]
      exact H.flushNull hflush hp'
  · exact wp_round_other hq hread hwrite hdisc hflush fun k w₁ hk =>
      H.other hread hwrite hdisc hflush hk

/-- The rule for a round. -/
theorem RoundRules.round (H : RoundRules env cfg blocksize c q Q JR JW)
    (hq : requestAt env c = some q)
    (hR : ∀ x w h, x.Ok cfg blocksize → JR x w h → Q (.halt .fuel) c.mem w h)
    (hW : ∀ x e w h, x.Ok cfg blocksize → JW x e w h → Q (.halt .fuel) c.mem w h)
    (hc : c.x.Ok cfg blocksize) : wp env (serveRequest cfg fuel blocksize c.x) Q c.mem c.env :=
  H.round_of hq (fun _ _ _ R hx _ hJ => R.loop hR fuel hx hJ)
    (fun _ _ _ _ R hx _ hJ => R.loop hW fuel hx hJ) hc

/-- The rule for a round whose loops are left in time. -/
theorem RoundRules.round_total (H : RoundRules env cfg blocksize c q Q JR JW)
    (hq : requestAt env c = some q) (h1 : 1 ≤ blocksize.toNat)
    (h2 : blocksize.toNat ≤ cfg.bufferLen) (hfuel : loopFuel cfg ≤ fuel) (hc : c.x.Ok cfg blocksize)
    (h0 : c.x.sendflag = 0) : wp env (serveRequest cfg fuel blocksize c.x) Q c.mem c.env := by
  have hpace : ∀ x, (x = varsAt env c ∨ x = (varsAt env c).accept cfg blocksize q) → x.Paced := by
    rintro x (rfl | rfl)
    · exact fun hne => absurd h0 hne
    · exact accept_paced h1 h2
  exact H.round_of hq
    (fun x _ _ R hx he hJ => R.loop_total (Nat.lt_of_lt_of_le hx.measure_lt hfuel) hx (hpace x he)
    hJ) (fun x _ _ _ R hx he hJ => R.loop_total (Nat.lt_of_lt_of_le hx.measure_lt hfuel)
    hx (hpace x he) hJ) hc

theorem RoundRules.of_read (ht : q.type = NBD_CMD_READ)
    (readLoop : ReadRules env c.mem cfg blocksize Q JR)
    (refused : outOfRange c.mem.ctx.exportsize q = true → ∀ {k w₁},
      env (envAt env c q) (.send c.mem.ctx.sock .reply (simpleReply NBD_EIO q.handle)
      c.x.sendflag) = (k, w₁) →
      JR (varsAt env c) w₁ (headerAt env c q ++ [⟨.send .., k⟩]))
    (accepted : outOfRange c.mem.ctx.exportsize q = false → blocksize ≠ 0 → ∀ {k w₁},
      env (envAt env c q) (.send c.mem.ctx.sock .reply (simpleReply NBD_SUCCESS q.handle)
      MSG_MORE) = (k, w₁) →
      JR ((varsAt env c).accept cfg blocksize q) w₁ (headerAt env c q ++ [⟨.send .., k⟩]))
    (zero : outOfRange c.mem.ctx.exportsize q = false → blocksize = 0 →
      Q (.halt .undefined) c.mem (envAt env c q) (headerAt env c q)) :
    RoundRules env cfg blocksize c q Q JR (fun _ _ _ _ => False) where
  readLoop _ := readLoop
  readRefused _ := refused
  readAccepted _ := accepted
  readZero _ := zero
  writeLoop ht' := absurd (ht.symm.trans ht') (by decide)
  writeRefused ht' := absurd (ht.symm.trans ht') (by decide)
  writeAccepted ht' := absurd (ht.symm.trans ht') (by decide)
  writeZero ht' := absurd (ht.symm.trans ht') (by decide)
  disc ht' := absurd (ht.symm.trans ht') (by decide)
  flush ht' := absurd (ht.symm.trans ht') (by decide)
  flushNull ht' := absurd (ht.symm.trans ht') (by decide)
  other ht' := absurd ht ht'

theorem RoundRules.of_write (ht : q.type = NBD_CMD_WRITE)
    (writeLoop : WriteRules env c.mem cfg blocksize (Post.thenReply env q.handle Q) JW)
    (refused : writeError c.mem.ctx q ≠ NBD_SUCCESS →
      JW (varsAt env c) (writeError c.mem.ctx q) (envAt env c q) (headerAt env c q))
    (accepted : writeError c.mem.ctx q = NBD_SUCCESS → blocksize ≠ 0 →
      JW ((varsAt env c).accept cfg blocksize q) NBD_SUCCESS (envAt env c q) (headerAt env c q))
    (zero : writeError c.mem.ctx q = NBD_SUCCESS → blocksize = 0 →
      Q (.halt .undefined) c.mem (envAt env c q) (headerAt env c q)) :
    RoundRules env cfg blocksize c q Q (fun _ _ _ => False) JW where
  readLoop ht' := absurd (ht.symm.trans ht') (by decide)
  readRefused ht' := absurd (ht.symm.trans ht') (by decide)
  readAccepted ht' := absurd (ht.symm.trans ht') (by decide)
  readZero ht' := absurd (ht.symm.trans ht') (by decide)
  writeLoop _ := writeLoop
  writeRefused _ := refused
  writeAccepted _ := accepted
  writeZero _ := zero
  disc ht' := absurd (ht.symm.trans ht') (by decide)
  flush ht' := absurd (ht.symm.trans ht') (by decide)
  flushNull ht' := absurd (ht.symm.trans ht') (by decide)
  other _ ht' := absurd ht ht'

theorem requestAt_of_next {x' : Vars}
    (h : ((serveRequest cfg fuel blocksize c.x).run env c.mem c.env).out = .ret (.next x')) :
    ∃ q, requestAt env c = some q := by
  cases hq : requestAt env c with
  | some q => exact ⟨q, rfl⟩
  | none =>
    have hnone : wp env (serveRequest cfg fuel blocksize c.x)
        (fun o _ _ _ => ∀ x', o ≠ .ret (.next x')) c.mem c.env :=
      wp_round_none hq (by simp)
    exact absurd h (hnone x')

end Rules

/-! ### What a round leaves alone -/

/-- A round leaves the shared memory alone, unless it is the last. -/
theorem round_frame (hc : c.x.Ok cfg blocksize) :
    wp env (serveRequest cfg fuel blocksize c.x)
      (fun o s' _ _ => ∀ x', o = .ret (.next x') → s' = c.mem ∧ x'.Ok cfg blocksize)
      c.mem c.env := by
  have hx : (varsAt env c).Ok cfg blocksize := varsAt_ok hc
  cases hq : requestAt env c with
  | none => exact wp_round_none hq (by simp)
  | some q =>
    have H : RoundRules env cfg blocksize c q
        (fun o s' _ _ => ∀ x', o = .ret (.next x') → s' = c.mem ∧ x'.Ok cfg blocksize)
        (fun _ _ _ => True) (fun _ _ _ _ => True) :=
      { readLoop := fun _ =>
          { leave := by rintro x w h hx - - x' ⟨⟩; exact ⟨rfl, hx⟩
            null := by simp
            sent := fun _ _ _ _ _ _ _ _ => trivial
            cut := by rintro x w h p r w₁ k w₂ - - - - - - z - - hz x' ⟨⟩; exact ⟨rfl, hz⟩
            again := fun _ _ _ _ _ _ _ => trivial
            fail := by simp }
        readRefused := fun _ _ _ _ _ => trivial
        readAccepted := fun _ _ _ _ _ _ => trivial
        readZero := by simp
        writeLoop := fun _ =>
          { leave := by rintro x e w h hx - - k w₁ - x' ⟨⟩; exact ⟨rfl, hx⟩
            null := by simp
            written := fun _ _ _ _ _ _ _ _ _ => trivial
            failed := fun _ _ _ _ _ _ _ _ _ => trivial
            cut := fun _ _ _ _ _ => trivial }
        writeRefused := fun _ _ => trivial
        writeAccepted := fun _ _ _ => trivial
        writeZero := by simp
        disc := by simp
        flush := by rintro - p r w₁ k w₂ - - - - x' ⟨⟩; exact ⟨rfl, hx⟩
        flushNull := by simp
        other := by rintro - - - - k w₁ - x' ⟨⟩; exact ⟨rfl, hx⟩ }
    exact H.round hq (by simp) (by simp) hc

/-- With enough fuel the loops of a round are left. -/
theorem round_ends (h1 : 1 ≤ blocksize.toNat) (h2 : blocksize.toNat ≤ cfg.bufferLen)
    (hfuel : loopFuel cfg ≤ fuel) (hc : c.x.Ok cfg blocksize) (h0 : c.x.sendflag = 0) :
    wp env (serveRequest cfg fuel blocksize c.x) (fun o _ _ _ => o ≠ .halt .fuel) c.mem c.env := by
  cases hq : requestAt env c with
  | none => exact wp_round_none hq (by simp)
  | some q =>
    have H : RoundRules env cfg blocksize c q (fun o _ _ _ => o ≠ .halt .fuel)
        (fun _ _ _ => True) (fun _ _ _ _ => True) :=
      { readLoop := fun _ =>
          { leave := by simp
            null := by simp
            sent := fun _ _ _ _ _ _ _ _ => trivial
            cut := by simp
            again := fun _ _ _ _ _ _ _ => trivial
            fail := by simp }
        readRefused := fun _ _ _ _ _ => trivial
        readAccepted := fun _ _ _ _ _ _ => trivial
        readZero := by simp
        writeLoop := fun _ =>
          { leave := by simp
            null := by simp
            written := fun _ _ _ _ _ _ _ _ _ => trivial
            failed := fun _ _ _ _ _ _ _ _ _ => trivial
            cut := fun _ _ _ _ _ => trivial }
        writeRefused := fun _ _ => trivial
        writeAccepted := fun _ _ _ => trivial
        writeZero := by simp
        disc := by simp
        flush := by simp
        flushNull := by simp
        other := by simp }
    exact H.round_total hq h1 h2 hfuel hc h0

/-! ### The calls of a round -/

/-- A call that is made in the transmission phase: over the socket of `ctx`, or through its
plugin and handle. -/
def Transmits (ctx : ContextNbd) : Call → Prop
  | .recv k .request _ | .recv k .nbdBuffer _ | .send k .reply _ _ | .send k .nbdBuffer _ _ =>
    k = ctx.sock
  | .pread p handle _ _ | .pwrite p handle _ _ _ =>
    ctx.p = some p ∧ handle = ctx.handle ∧ ctx.minimumBlockSize ≠ 0
  | .flush p handle => ctx.p = some p ∧ handle = ctx.handle ∧ p.flush = true
  | .note (.index _ _) | .uninit _ => True
  | _ => False

/-- The calls of a round; and `sendflag` is set only where there are blocks to be sent. -/
theorem round_transmits (hc : c.x.Ok cfg c.mem.ctx.minimumBlockSize)
    (hb : c.x.sendflag ≠ 0 → c.mem.ctx.minimumBlockSize ≠ 0) :
    wp env (serveRequest cfg fuel c.mem.ctx.minimumBlockSize c.x) (fun o _ _ h =>
      (∀ e ∈ calls h, Transmits c.mem.ctx e) ∧
      ∀ x', o = .ret (.next x') → x'.sendflag ≠ 0 → c.mem.ctx.minimumBlockSize ≠ 0)
      c.mem c.env := by
  cases hq : requestAt env c with
  | none => exact wp_round_none hq ⟨by simp [Transmits], by simp⟩
  | some q =>
    have hhead : ∀ e ∈ calls (headerAt env c q), Transmits c.mem.ctx e := by
      simp [headerAt, Transmits]
    have H : RoundRules env cfg c.mem.ctx.minimumBlockSize c q
        (fun o _ _ h => (∀ e ∈ calls h, Transmits c.mem.ctx e) ∧
          ∀ x', o = .ret (.next x') → x'.sendflag ≠ 0 → c.mem.ctx.minimumBlockSize ≠ 0)
        (fun x _ h => (x.sendflag ≠ 0 → c.mem.ctx.minimumBlockSize ≠ 0) ∧
          ∀ e ∈ calls h, Transmits c.mem.ctx e)
        (fun x _ _ h => (x.sendflag ≠ 0 → c.mem.ctx.minimumBlockSize ≠ 0) ∧
          ∀ e ∈ calls h, Transmits c.mem.ctx e) :=
      { readLoop := fun _ =>
          { leave := by rintro x w h - ⟨hx, hh⟩ -; exact ⟨hh, by rintro x' ⟨⟩; exact hx⟩
            null := by rintro x w h - ⟨-, hh⟩ - -; exact ⟨hh, by simp⟩
            sent := by
              rintro x w h p r w₁ k w₂ - ⟨hx, hh⟩ hne hp - - z - -
              exact ⟨fun _ => hx hne, calls_forall_append hh (by simp [Transmits, hp, hx hne])⟩
            cut := by
              rintro x w h p r w₁ k w₂ - ⟨hx, hh⟩ hne hp - - z - - -
              exact ⟨calls_forall_append hh (by simp [Transmits, hp, hx hne]), fun _ _ _ => hx hne⟩
            again := by
              rintro x w h p r w₁ - ⟨hx, hh⟩ hne hp - - -
              exact ⟨fun _ => hx hne, calls_forall_append hh (by simp [Transmits, hp, hx hne])⟩
            fail := by
              rintro x w h p r w₁ - ⟨hx, hh⟩ hne hp - - -
              exact ⟨calls_forall_append hh (by simp [Transmits, hp, hx hne]),
                fun _ _ _ => hx hne⟩ }
        readRefused := fun _ _ _ _ _ => ⟨hb, calls_forall_append hhead (by simp [Transmits])⟩
        readAccepted :=
          fun _ _ hb' _ _ _ => ⟨fun _ => hb', calls_forall_append hhead (by simp [Transmits])⟩
        readZero := fun _ _ _ => ⟨hhead, by simp⟩
        writeLoop := fun _ =>
          { leave := by
              rintro x e w h - ⟨hx, hh⟩ - k w₁ -
              exact ⟨calls_forall_append hh (by simp [Transmits]), by rintro x' ⟨⟩; exact hx⟩
            null := by
              rintro x e w h r w₁ - ⟨-, hh⟩ - - - -
              exact ⟨calls_forall_append hh (by simp [Transmits]), by simp⟩
            written := by
              rintro x e w h p r w₁ k w₂ - ⟨hx, hh⟩ hne hp - - - z - -
              exact ⟨fun _ => hx hne, calls_forall_append hh (by simp [Transmits, hp, hx hne])⟩
            failed := by
              rintro x e w h p r w₁ k w₂ - ⟨hx, hh⟩ hne hp - - - z - -
              exact ⟨fun _ => hx hne, calls_forall_append hh (by simp [Transmits, hp, hx hne])⟩
            cut := by
              rintro x e w h r w₁ - ⟨hx, hh⟩ hne - -
              exact ⟨fun _ => hx hne, calls_forall_append hh (by simp [Transmits])⟩ }
        writeRefused := fun _ _ => ⟨hb, hhead⟩
        writeAccepted := fun _ _ hb' => ⟨fun _ => hb', hhead⟩
        writeZero := fun _ _ _ => ⟨hhead, by simp⟩
        disc := fun _ => ⟨hhead, by simp⟩
        flush := by
          rintro - p r w₁ k w₂ hp hf - -
          exact ⟨calls_forall_append hhead (by simp [Transmits, hp, hf]), by rintro x' ⟨⟩; exact hb⟩
        flushNull := fun _ _ => ⟨hhead, by simp⟩
        other := by
          rintro - - - - k w₁ -
          exact ⟨calls_forall_append hhead (by simp [Transmits]), by rintro x' ⟨⟩; exact hb⟩ }
    exact H.round hq (fun _ _ _ _ hJ => ⟨hJ.2, by simp⟩) (fun _ _ _ _ _ hJ => ⟨hJ.2, by simp⟩) hc

/-! ### The heads that are reached -/

variable (env)

/-- The first head, when `transmission_phase` is entered with memory `s` and environment `w`. -/
def firstHead (cfg : Config) (s : Shared) (w : σ) : ReqHead σ :=
  let request := env w (.uninit 28)
  let nbdBuffer := env request.2 (.uninit cfg.bufferLen)
  ⟨.init cfg request.1.1 nbdBuffer.1.1, s, nbdBuffer.2⟩

/-- The body of the request loop, when `transmission_phase` is entered with memory `s`. -/
def serveIn (cfg : Config) (fuel : ℕ) (s : Shared) : Vars → Server (Ctl Vars ℤ) :=
  serveRequest cfg fuel s.ctx.minimumBlockSize

/-- The round from a head. -/
def roundAt (cfg : Config) (fuel : ℕ) (c : ReqHead σ) : Result Shared Call Resp σ (Ctl Vars ℤ) :=
  c.round env (serveIn cfg fuel c.mem)

/-- The heads reached after `transmission_phase` is entered with memory `s` and
environment `w`, when every round so far was from a head of which `ok` holds. -/
def AtRequest (cfg : Config) (fuel : ℕ) (ok : ReqHead σ → Prop) (s : Shared) (w : σ) :
    ReqHead σ → Prop :=
  Reaches env (serveIn cfg fuel s) ok (firstHead env cfg s w)

/-- `transmission_phase` is the loop from the first head. -/
theorem run_transmissionPhase (s : Shared) (w : σ) :
    (transmissionPhase cfg fuel).run env s w =
      let c := firstHead env cfg s w
      let request := env w (.uninit 28)
      let nbdBuffer := env request.2 (.uninit cfg.bufferLen)
      let z := (Prog.loop fuel (serveIn cfg fuel s) c.x).run env c.mem c.env
      { z with trace := ⟨.uninit 28, request.1⟩ :: ⟨.uninit cfg.bufferLen, nbdBuffer.1⟩ ::
  z.trace } := rfl

variable {env} {ok : ReqHead σ → Prop} {s : Shared} {w : σ}

theorem wp_transmissionPhase {Q : Post Shared Call Resp σ ℤ}
    (h : wp env (Prog.loop fuel (serveIn cfg fuel s) (firstHead env cfg s w).x)
      (Q.after [⟨.uninit 28, (env w (.uninit 28)).1⟩,
        ⟨.uninit cfg.bufferLen, (env (env w (.uninit 28)).2 (.uninit cfg.bufferLen)).1⟩]) s
      (firstHead env cfg s w).env) :
    wp env (transmissionPhase cfg fuel) Q s w := h

theorem firstHead_ok : (firstHead env cfg s w).x.Ok cfg blocksize :=
  ⟨⟨by simp [firstHead, Vars.init], by simp [firstHead, Vars.init],
    (env (env w (.uninit 28)).2 (.uninit cfg.bufferLen)).1.2⟩, Nat.le_refl _,
    (env w (.uninit 28)).1.2⟩

/-- At every head that is reached, the shared memory is as on entry and the variables are
in order. -/
theorem AtRequest.frame (h : AtRequest env cfg fuel ok s w c) :
    c.mem = s ∧ c.x.Ok cfg s.ctx.minimumBlockSize := by
  refine reaches_inv env (fun x s' _ => s' = s ∧ x.Ok cfg s.ctx.minimumBlockSize) ?_ h
    ⟨rfl, firstHead_ok⟩
  rintro x _ w' - ⟨rfl, hx⟩
  exact round_frame (c := ⟨x, _, w'⟩) hx

/-- What every round from an `ok` head keeps holds at every head that is reached by them. -/
theorem AtRequest.inv (I : Vars → σ → Prop) (h : AtRequest env cfg fuel ok s w c)
    (h0 : I (firstHead env cfg s w).x (firstHead env cfg s w).env)
    (hI : ∀ c : ReqHead σ, c.mem = s → c.x.Ok cfg s.ctx.minimumBlockSize → ok c → I c.x c.env →
      wp env (serveIn cfg fuel s c.x) (fun o _ w' _ => ∀ x', o = .ret (.next x') → I x' w') s
      c.env) :
    I c.x c.env := by
  refine (reaches_inv env (fun x s' w' => (s' = s ∧ x.Ok cfg s.ctx.minimumBlockSize) ∧ I x w') ?_ h
    ⟨⟨rfl, firstHead_ok⟩, h0⟩).2
  rintro x _ w' hok ⟨⟨rfl, hx⟩, hIx⟩
  intro x' hx'
  exact ⟨round_frame (c := ⟨x, _, w'⟩) hx x' hx', hI ⟨x, _, w'⟩ rfl hx hok hIx x' hx'⟩

theorem AtRequest.mono {ok' : ReqHead σ → Prop} (hok : ∀ c, ok c → ok' c)
    (h : AtRequest env cfg fuel ok s w c) : AtRequest env cfg fuel ok' s w c := by
  unfold AtRequest Reaches at *
  exact Relation.ReflTransGen.mono (fun _ _ hc => ⟨hok _ hc.1, hc.2⟩) _ _ h

/-- `sendflag` is set at a head only where there are blocks to be sent. -/
theorem AtRequest.blocks (h : AtRequest env cfg fuel ok s w c) (hne : c.x.sendflag ≠ 0) :
    s.ctx.minimumBlockSize ≠ 0 := by
  refine h.inv (fun x _ => x.sendflag ≠ 0 → s.ctx.minimumBlockSize ≠ 0)
    (by simp [firstHead, Vars.init]) ?_ hne
  rintro c rfl hc - hI x' hx'
  exact (round_transmits hc hI).2 x' hx'

/-- The calls of the transmission phase. -/
theorem transmissionPhase_transmits : wp env (transmissionPhase cfg fuel)
    (fun _ _ _ h => ∀ e ∈ calls h, Transmits s.ctx e) s w := by
  refine wp_transmissionPhase (calls_forall_append (by simp [Transmits]) fun e he => ?_)
  obtain ⟨⟨_, r⟩, hmem, rfl⟩ := List.mem_map.mp he
  obtain ⟨c, hc, hmem⟩ := mem_trace_loop env hmem
  have hb := AtRequest.blocks hc
  obtain ⟨rfl, hok⟩ := AtRequest.frame hc
  exact (round_transmits hok hb).1 _ (List.mem_map_of_mem hmem)

/-! ### The requests that were served -/

variable (env) in
/-- The requests served when control is at a head: `qs`, in order, each from a head of which
`ok` holds. -/
inductive Served (cfg : Config) (fuel : ℕ) (ok : ReqHead σ → Prop) (s : Shared) (w : σ) :
    List NbdRequest → ReqHead σ → Prop where
  /-- None at the first head. -/
  | first : Served cfg fuel ok s w [] (firstHead env cfg s w)
  /-- A request is read, and the loop goes round again. -/
  | round {qs : List NbdRequest} {q : NbdRequest} {c c' : ReqHead σ} : Served cfg fuel ok s w qs c →
      ok c →
    requestAt env c = some q → Round env (serveIn cfg fuel s) c c' →
      Served cfg fuel ok s w (qs ++ [q]) c'

theorem Served.atRequest {qs : List NbdRequest} (h : Served env cfg fuel ok s w qs c) :
    AtRequest env cfg fuel ok s w c := by
  induction h with
  | first => exact .refl
  | round _ hok _ hr ih => exact ih.tail ⟨hok, hr⟩

variable (env) in
/-- Serve one more request, if there is one. -/
def serveNext (cfg : Config) (fuel : ℕ) (s : Shared) (a : List NbdRequest × ReqHead σ) :
    List NbdRequest × ReqHead σ :=
  match requestAt env a.2, a.2.next? env (serveIn cfg fuel s) with
  | some q, some c => (a.1 ++ [q], c)
  | _, _ => a

variable (env) in
/-- The first `n` requests, and the head after them. -/
def servedAfter (cfg : Config) (fuel : ℕ) (s : Shared) (w : σ) : ℕ → List NbdRequest × ReqHead σ
  | 0 => ([], firstHead env cfg s w)
  | n + 1 => serveNext env cfg fuel s (servedAfter cfg fuel s w n)

theorem served_after_of {ok : ReqHead σ → Prop} (n : ℕ)
    (hok : ∀ k < n, ok (servedAfter env cfg fuel s w k).2) :
    Served env cfg fuel ok s w (servedAfter env cfg fuel s w n).1
    (servedAfter env cfg fuel s w n).2 := by
  induction n with
  | zero => exact .first
  | succ n ih =>
    have hn := ih fun k hk => hok k (Nat.lt_succ_of_lt hk)
    unfold servedAfter serveNext
    split
    case h_1 q c hq hc => exact hn.round (hok n (Nat.lt_succ_self n)) hq (Head.round_next? env hc)
    case h_2 => exact hn

theorem served_after (n : ℕ) :
    Served env cfg fuel (fun _ => True) s w (servedAfter env cfg fuel s w n).1
    (servedAfter env cfg fuel s w n).2 := served_after_of n fun _ _ => trivial

/-! ### `sendflag` at the head of the request loop -/

/-- The transport cut no data short that more were to follow. -/
def Uncut (h : List Ev) : Prop :=
  ∀ sock buf flags (k : Sent buf.length), ⟨.send sock .nbdBuffer buf flags, k⟩ ∈ h → flags ≠ 0 →
    k.1 = buf.length

/-- `sendflag` is set after a request only if it was before, or a READ was cut short. -/
theorem round_sendflag (hc : c.x.Ok cfg blocksize)
    (hp : c.x.sendflag ≠ 0 → c.mem.ctx.p ≠ none) :
    wp env (serveRequest cfg fuel blocksize c.x)
      (fun o _ _ h => ∀ x', o = .ret (.next x') → x'.sendflag ≠ 0 →
        c.mem.ctx.p ≠ none ∧ (c.x.sendflag = 0 → ¬ Uncut h)) c.mem c.env := by
  cases hq : requestAt env c with
  | none => exact wp_round_none hq (by simp)
  | some q =>
    have H : RoundRules env cfg blocksize c q
        (fun o _ _ h => ∀ x', o = .ret (.next x') → x'.sendflag ≠ 0 →
          c.mem.ctx.p ≠ none ∧ (c.x.sendflag = 0 → ¬ Uncut h))
        (fun _ _ _ => True) (fun _ _ _ _ => True) :=
      { readLoop := fun _ =>
          { leave := by rintro x w h - - h0 x' ⟨⟩ hne; exact absurd h0 hne
            null := by simp
            sent := fun _ _ _ _ _ _ _ _ => trivial
            cut := by
              rintro x w h p r w₁ k w₂ - - - hp - - z - hk hz x' ⟨⟩ hne
              refine ⟨by simp [hp], fun _ hun => hk ?_⟩
              rw [hun _ _ _ k (List.mem_append_right _ (.tail _ (.head _))) hne, hz.length_take]
            again := fun _ _ _ _ _ _ _ => trivial
            fail := by simp }
        readRefused := fun _ _ _ _ _ => trivial
        readAccepted := fun _ _ _ _ _ _ => trivial
        readZero := by simp
        writeLoop := fun _ =>
          { leave := by rintro x e w h - - h0 k w₁ - x' ⟨⟩ hne; exact absurd h0 hne
            null := by simp
            written := fun _ _ _ _ _ _ _ _ _ => trivial
            failed := fun _ _ _ _ _ _ _ _ _ => trivial
            cut := fun _ _ _ _ _ => trivial }
        writeRefused := fun _ _ => trivial
        writeAccepted := fun _ _ _ => trivial
        writeZero := by simp
        disc := by simp
        flush := by
          rintro - p r w₁ k w₂ - - - - x' ⟨⟩ hne
          exact ⟨hp hne, fun h0 => absurd h0 hne⟩
        flushNull := by simp
        other := by
          rintro - - - - k w₁ - x' ⟨⟩ hne
          exact ⟨hp hne, fun h0 => absurd h0 hne⟩ }
    exact H.round hq (by simp) (by simp) hc

/-- `sendflag` is set at a head only if the export has a plugin, whose blocks were read. -/
theorem AtRequest.plugin {ok : ReqHead σ → Prop} (h : AtRequest env cfg fuel ok s w c)
    (hne : c.x.sendflag ≠ 0) : s.ctx.p ≠ none := by
  refine h.inv (fun x _ => x.sendflag ≠ 0 → s.ctx.p ≠ none) (by simp [firstHead, Vars.init]) ?_ hne
  rintro c rfl hx - hI x' hx' hne'
  exact (round_sendflag hx hI x' hx' hne').1

/-- `sendflag` is clear at every head of a run that cuts no data short. -/
theorem AtRequest.sendflag_eq_zero
    (h : AtRequest env cfg fuel (fun c => Uncut (roundAt env cfg fuel c).trace) s w c) :
    c.x.sendflag = 0 := by
  refine h.inv (fun x _ => x.sendflag = 0) rfl ?_
  rintro c rfl hx hun h0 x' hx'
  by_contra hne
  exact (round_sendflag hx (fun hne => absurd h0 hne) x' hx' hne).2 h0 hun

/-! ### Over the lossless transport -/

section Wire

variable {β : Type} {host : Env Call Resp β} {c : ReqHead (Wire β)} {q : NbdRequest}

variable (host) in
/-- A request of the client's is read as it was sent. -/
theorem requestAt_wire (hc : c.x.request.length = 28) {rest : Bytes}
    (hin : c.env.input = q.toBytes ++ rest) (hm : q.magic = NBD_REQUEST_MAGIC) :
    requestAt (wire host) c = some q := by
  have hlen : 28 ≤ c.env.input.length := by simp [hin]
  have hrecv : recvAt (wire host) c = (c.env.recv 28, _) :=
    wire_recv host c.env c.mem.ctx.sock .request 28
  have hdata : (c.env.recv 28).data = q.toBytes := by
    rw [recv_data_of_le _ hlen, hin, List.take_left' (by simp)]
  have hraw : rawAt (wire host) c = q.toBytes := by
    rw [rawAt, hrecv, hdata, store_full (by simp [hc])]
  have hret : (c.env.recv 28).ret = 28 := recv_ret_of_le _ hlen
  simp [requestAt, hraw, hrecv, hret, hm, asSize]

variable (host) in
/-- At the end of the stream the function returns. -/
theorem requestAt_wire_none (hin : c.env.input.length < 28) : requestAt (wire host) c = none := by
  have hrecv : recvAt (wire host) c = (c.env.recv 28, _) :=
    wire_recv host c.env c.mem.ctx.sock .request 28
  simp [requestAt, hrecv, recv_ret_of_lt _ hin, asSize]

theorem recvAt_wire (hin : 28 ≤ c.env.input.length) :
    (recvAt (wire host) c).2 = { c.env with input := c.env.input.drop 28 } := by
  simp [recvAt, wire_recv, recv_data_of_le _ hin, Nat.min_eq_left hin]

theorem envAt_wire_input (hin : 28 ≤ c.env.input.length) :
    (envAt (wire host) c q).input = c.env.input.drop 28 := by
  rw [envAt, recvAt_wire hin, wire_host _ _ rfl rfl]

theorem wire_uncut {α : Type} (p : Server α) (s : Shared) (w : Wire β) :
    Uncut (p.run (wire host) s w).trace := by
  induction p generalizing s w with
  | ret a => intro sock buf flags k hmem; simp [Prog.run] at hmem
  | halt e => intro sock buf flags k hmem; simp [Prog.run] at hmem
  | get k ih => exact ih s s w
  | put s' k ih => exact ih s' w
  | call e k ih =>
    intro sock buf flags k' hmem hne
    rcases List.mem_cons.mp hmem with hmem | hmem
    · cases hmem
      rfl
    · exact ih _ s _ sock buf flags k' hmem hne

/-- `sendflag` is clear at every head over the lossless transport. -/
theorem AtRequest.sendflag_wire {ok : ReqHead (Wire β) → Prop} {w : Wire β}
    (h : AtRequest (wire host) cfg fuel ok s w c) : c.x.sendflag = 0 := by
  have huncut : AtRequest (wire host) cfg fuel
      (fun c => Uncut (roundAt (wire host) cfg fuel c).trace) s w c :=
    h.mono fun _ _ => wire_uncut _ _ _
  exact huncut.sendflag_eq_zero

theorem envAt_wire_output : (envAt (wire host) c q).output = c.env.output := by
  rw [envAt, wire_host _ _ rfl rfl, recvAt, wire_recv]

theorem length_of_requestAt_wire (hq : requestAt (wire host) c = some q) :
    28 ≤ c.env.input.length := by
  by_contra hlt
  rw [requestAt_wire_none host (by omega)] at hq
  cases hq

/-- A round that reads a request leaves less of the stream. -/
theorem round_input_lt (hq : requestAt (wire host) c = some q) :
    wp (wire host) (serveIn cfg fuel c.mem c.x)
    (fun _ _ w' _ => w'.input.length < c.env.input.length)
      c.mem c.env := by
  have hin : c.env.input = _ := wire_input host (serveIn cfg fuel c.mem c.x) c.mem c.env
  have hhead : ∃ t, ((serveIn cfg fuel c.mem c.x).run (wire host) c.mem c.env).trace =
      ⟨.recv c.mem.ctx.sock .request 28, (recvAt (wire host) c).1⟩ :: t := ⟨_, rfl⟩
  obtain ⟨t, ht⟩ := hhead
  have hfull := length_of_requestAt_wire hq
  have hdata : (recvAt (wire host) c).1.data.length = 28 := by
    rw [recvAt, wire_recv, recv_data_of_le _ hfull, List.length_take]
    omega
  have hlen := congrArg List.length hin
  rw [ht, recvdBytes_recv, List.length_append, List.length_append] at hlen
  unfold wp
  omega

variable (fuel) (host) in
/-- A round leaves the memory as it was, the variables in order and `sendflag` clear. -/
theorem round_frame_wire (hc : c.x.Ok cfg blocksize) (h0 : c.x.sendflag = 0) :
    wp (wire host) (serveRequest cfg fuel blocksize c.x)
    (fun o s' _ _ => ∀ x', o = .ret (.next x') →
      s' = c.mem ∧ x'.Ok cfg blocksize ∧ x'.sendflag = 0) c.mem c.env := by
  intro x' hx'
  obtain ⟨hs, hok⟩ := round_frame hc x' hx'
  refine ⟨hs, hok, ?_⟩
  by_contra hne
  exact (round_sendflag hc (fun hne => absurd h0 hne) x' hx' hne).2 h0 (wire_uncut _ _ _)

/-- `transmission_phase` ends when the client's stream does, if not before. -/
theorem transmission_ends (h1 : 1 ≤ s.ctx.minimumBlockSize.toNat)
    (h2 : s.ctx.minimumBlockSize.toNat ≤ cfg.bufferLen) {w : Wire β} (hfuel : loopFuel cfg ≤ fuel)
    (hin : w.input.length < fuel) :
    ((transmissionPhase cfg fuel).run (wire host) s w).out ≠ .halt .fuel := by
  have hfirst : (firstHead (wire host) cfg s w).env.input = w.input := by
    rw [firstHead, wire_host _ _ rfl rfl, wire_host _ _ rfl rfl]
  rw [run_transmissionPhase]
  refine wp_loop_total (wire host) (Q := fun o _ _ _ => o ≠ .halt .fuel)
    (fun x s' _ _ => s' = s ∧ x.Ok cfg s.ctx.minimumBlockSize ∧ x.sendflag = 0)
    (fun _ _ w => w.input.length) ?_ fuel _ _ _ [] (by rw [hfirst]; exact hin)
    ⟨rfl, firstHead_ok, rfl⟩
  rintro x s' w' h ⟨rfl, hx, h0⟩
  have hround : wp (wire host) (serveIn cfg fuel s' x) (fun o s'' w'' _ => o ≠ .halt .fuel ∧
      ∀ x', o = .ret (.next x') → (s'' = s' ∧ x'.Ok cfg s'.ctx.minimumBlockSize ∧ x'.sendflag = 0) ∧
        w''.input.length < w'.input.length) s' w' := by
    let c : ReqHead (Wire β) := ⟨x, s', w'⟩
    refine ⟨round_ends (c := c) h1 h2 hfuel hx h0,
      fun x' hx' => ⟨round_frame_wire fuel host (c := c) hx h0 x' hx', ?_⟩⟩
    obtain ⟨q, hq⟩ := requestAt_of_next (c := c) hx'
    exact round_input_lt (c := c) hq
  refine wp_mono _ ?_ hround
  rintro ((x' | r) | e) s'' w'' h' ⟨hne, hnext⟩
  · exact hnext x' rfl
  · simp
  · simpa using hne

end Wire

end LwNBD
