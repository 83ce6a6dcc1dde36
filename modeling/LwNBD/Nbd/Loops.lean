import LwNBD.Nbd.Serve

/-!
# The chunk loops

The rules for the two loops that serve a READ and a WRITE. An invariant `J` of a loop is
stated at its head, of the variables, the environment and the calls made so far; what
the code relies on throughout (`Vars.Ok`) and the shared memory, which the loops leave
alone, are taken care of here.

## What is proved

* `ReadRules.loop`, `WriteRules.loop` — what the cases of a chunk keep holds when the
  loop is left, or cut short by its fuel.
* `ReadRules.loop_total`, `WriteRules.loop_total` — a loop whose chunks are not empty is
  left before `loopFuel` rounds.
-/

namespace LwNBD

open Resumption

variable {cfg : Config} {blocksize : UInt32} {x : Vars} {q : NbdRequest}

/-! ### What holds throughout -/

/-- What holds of the variables at the head of each loop. -/
structure Vars.Ok (cfg : Config) (blocksize : UInt32) (x : Vars) : Prop
    extends x.Sized cfg blocksize where
  /-- Retries are not added to. -/
  retry_le : x.retry ≤ cfg.maxRetries
  /-- The memory of a request has its length. -/
  request : x.request.length = 28

theorem Vars.Ok.accept (h : x.Ok cfg blocksize) : (x.accept cfg blocksize q).Ok cfg blocksize :=
  ⟨accept_sized h.buffer, h.retry_le, h.request⟩

theorem Vars.Ok.chunk (h : x.Ok cfg blocksize) : (x.chunk blocksize).Ok cfg blocksize :=
  ⟨chunk_sized h.toSized, by rw [chunk_retry]; exact h.retry_le, by
                               rw [chunk_request]; exact h.request⟩

theorem Vars.Ok.fill {d : Bytes} (h : x.Ok cfg blocksize) : (x.fill d).Ok cfg blocksize :=
  ⟨fill_sized h.toSized, h.retry_le, h.request⟩

theorem Vars.Ok.stop (h : x.Ok cfg blocksize) : x.stop.Ok cfg blocksize :=
  ⟨⟨h.bytes, h.fits, h.buffer⟩, h.retry_le, h.request⟩

theorem Vars.Ok.advance (h : x.Ok cfg blocksize) : (x.advance cfg).Ok cfg blocksize :=
  ⟨⟨h.bytes, h.fits, h.buffer⟩, Nat.le_refl _, h.request⟩

theorem Vars.Ok.again (h : x.Ok cfg blocksize) :
    ({ x with retry := x.retry - 1, sendflag := 1 } : Vars).Ok cfg blocksize :=
  ⟨⟨h.bytes, h.fits, h.buffer⟩, Nat.le_trans (Nat.sub_le _ _) h.retry_le, h.request⟩

theorem Vars.Ok.byteread_le (h : x.Ok cfg blocksize) : x.byteread.toNat ≤ cfg.bufferLen := by
  rw [h.bytes]; exact h.fits

theorem Vars.Ok.byteread_le_length (h : x.Ok cfg blocksize) :
    x.byteread.toNat ≤ x.nbdBuffer.length := by
  rw [h.buffer]; exact h.byteread_le

/-- The part of the buffer that is sent has the length that was announced. -/
theorem Vars.Ok.length_take (h : x.Ok cfg blocksize) :
    (x.nbdBuffer.take x.byteread.toNat).length = x.byteread.toNat := by
  rw [List.length_take]
  exact Nat.min_eq_left h.byteread_le_length

/-- The bytes of a chunk that was stored are at the start of the buffer. -/
theorem Vars.Ok.take_fill (h : x.Ok cfg blocksize) {d : Bytes}
    (hd : d.length = (x.chunk blocksize).byteread.toNat) :
    ((x.chunk blocksize).fill d).nbdBuffer.take (x.chunk blocksize).byteread.toNat = d := by
  rw [← hd, fill_nbdBuffer, take_store]
  rw [hd]
  exact h.chunk.byteread_le_length

/-- The bytes of a chunk, and those of the blocks that remain after it. -/
theorem Vars.Ok.chunk_bytes (h : x.Ok cfg blocksize) {d : Bytes} :
    (x.chunk blocksize).byteread.toNat +
    (((x.chunk blocksize).fill d).advance cfg).blkremains.toNat * blocksize.toNat =
      x.blkremains.toNat * blocksize.toNat := by
  have hle : ((x.chunk blocksize).fill d).bufblksz.toNat ≤
      ((x.chunk blocksize).fill d).blkremains.toNat := by
    rw [fill_bufblksz, chunk_bufblksz, fill_blkremains, chunk_blkremains]
    exact Nat.min_le_left _ _
  rw [advance_blkremains cfg hle, h.chunk.bytes, ← Nat.add_mul]
  rw [fill_bufblksz, fill_blkremains, chunk_blkremains] at *
  congr 1
  omega

/-- A chunk went whole when the count in `uint32_t` says so. -/
theorem asUInt32_eq_iff {r : ℤ} {n : UInt32} (hlo : -1 ≤ r) (hhi : r ≤ n.toNat)
    (hn : n.toNat ≤ 4096) : asUInt32 r = n ↔ r = n.toNat := by
  rw [← UInt32.toNat_inj, asUInt32, UInt32.ofInt, UInt32.toNat_ofNat']
  omega

/-- A chunk was received whole if the count says so. -/
theorem Vars.Ok.received_iff (h : x.Ok cfg blocksize) (r : Recvd x.byteread.toNat) :
    asUInt32 r.ret = x.byteread ↔ r.ret = x.byteread.toNat := by
  have hle : r.ret ≤ x.byteread.toNat := Int.le_trans r.ret_le (Int.ofNat_le.mpr r.data_le)
  exact asUInt32_eq_iff r.ret_ge hle (Nat.le_trans h.byteread_le cfg.bufferLen_le)

theorem Vars.Ok.sent_iff (h : x.Ok cfg blocksize)
    (k : Sent (x.nbdBuffer.take x.byteread.toNat).length) :
    asUInt32 k.1 = x.byteread ↔ k.1 = x.byteread.toNat := by
  have hle : k.1 ≤ x.byteread.toNat :=
    Int.le_trans k.2.2 (Int.ofNat_le.mpr (Nat.le_of_eq h.length_take))
  exact asUInt32_eq_iff k.2.1 hle (Nat.le_trans h.byteread_le cfg.bufferLen_le)

/-- How many more rounds a loop may take: each chunk may be tried `maxRetries` times again. -/
def Vars.measure (cfg : Config) (x : Vars) : ℕ :=
  if x.sendflag = 0 then 0 else x.blkremains.toNat * (cfg.maxRetries + 1) + x.retry + 1

/-- More rounds than a loop may take. -/
def loopFuel (cfg : Config) : ℕ := (2 ^ 32 + 1) * (cfg.maxRetries + 1) + 1

theorem Vars.Ok.measure_lt (h : x.Ok cfg blocksize) : x.measure cfg < loopFuel cfg := by
  unfold Vars.measure loopFuel
  split_ifs
  · omega
  · have hb := Nat.mul_le_mul_right (cfg.maxRetries + 1) (Nat.le_of_lt x.blkremains.toNat_lt)
    have hr := h.retry_le
    rw [Nat.add_mul]
    omega

/-- Chunks are not empty while blocks remain. -/
def Vars.Paced (x : Vars) : Prop := x.sendflag ≠ 0 → 0 < x.bufblksz.toNat ∨ x.blkremains.toNat = 0

theorem accept_paced (h1 : 1 ≤ blocksize.toNat) (h2 : blocksize.toNat ≤ cfg.bufferLen) :
    (x.accept cfg blocksize q).Paced := by
  intro _
  left
  rw [accept_bufblksz]
  exact Nat.div_pos h2 h1

/-- A chunk that is not tried again brings the loop nearer to its end. -/
theorem advance_measure {d : Bytes} (h : x.Paced) (hx : x.sendflag ≠ 0) :
    (((x.chunk blocksize).fill d).advance cfg).Paced ∧
      (((x.chunk blocksize).fill d).advance cfg).measure cfg < x.measure cfg := by
  have hle : ((x.chunk blocksize).fill d).bufblksz.toNat ≤
      ((x.chunk blocksize).fill d).blkremains.toNat := by
    simp only [fill_bufblksz, chunk_bufblksz, fill_blkremains, chunk_blkremains]
    exact Nat.min_le_left _ _
  have hrem := advance_blkremains cfg hle
  simp only [fill_bufblksz, fill_blkremains, chunk_blkremains, chunk_bufblksz] at hrem
  have h := h hx
  unfold Vars.Paced Vars.measure at *
  rw [if_neg hx, advance_sendflag, fill_sendflag, chunk_sendflag, advance_bufblksz, fill_bufblksz,
    chunk_bufblksz, advance_retry, hrem]
  by_cases hlast : x.blkremains.toNat ≤ x.bufblksz.toNat
  · rw [if_pos hlast, if_pos rfl]
    omega
  · rw [if_neg hlast, if_neg hx]
    refine ⟨by omega, ?_⟩
    have hlt : x.blkremains.toNat - min x.blkremains.toNat x.bufblksz.toNat +
        1 ≤ x.blkremains.toNat := by
      omega
    have hmul := Nat.mul_le_mul_right (cfg.maxRetries + 1) hlt
    rw [Nat.add_mul, Nat.one_mul] at hmul
    omega

/-! ### READ -/

section Read

variable {σ : Type} (env : Env Call Resp σ) (s : Shared)

/-- The cases of a READ loop, for an invariant `J` and a postcondition `Q`. -/
structure ReadRules (cfg : Config) (blocksize : UInt32) (Q : Post Shared Call Resp σ (Ctl Vars ℤ))
    (J : Vars → σ → List Ev → Prop) : Prop where
  /-- The loop is left when `sendflag` is clear. -/
  leave : ∀ {x w h}, x.Ok cfg blocksize → J x w h → x.sendflag = 0 → Q (.ret (.next x)) s w h
  /-- There is no plugin to read from. -/
  null : ∀ {x w h}, x.Ok cfg blocksize → J x w h → x.sendflag ≠ 0 → s.ctx.p = none →
    Q (.halt .undefined) s w h
  /-- A chunk is read, and sent. -/
  sent : ∀ {x w h p r w₁ k w₂}, x.Ok cfg blocksize → J x w h → x.sendflag ≠ 0 → s.ctx.p = some p →
    env w (.pread p s.ctx.handle (x.chunk blocksize).bufblksz x.offset) = (r, w₁) → r.ret = 0 →
    let z := (x.chunk blocksize).fill r.data
    env w₁ (.send s.ctx.sock .nbdBuffer (z.nbdBuffer.take z.byteread.toNat) z.sendflag) = (k, w₂) →
    k.1 = z.byteread.toNat →
    J (z.advance cfg) w₂ (h ++ [⟨.pread .., r⟩, ⟨.send .., k⟩])
  /-- A chunk is read, and not all of it goes: the loop is left. -/
  cut : ∀ {x w h p r w₁ k w₂}, x.Ok cfg blocksize → J x w h → x.sendflag ≠ 0 → s.ctx.p = some p →
    env w (.pread p s.ctx.handle (x.chunk blocksize).bufblksz x.offset) = (r, w₁) → r.ret = 0 →
    let z := (x.chunk blocksize).fill r.data
    env w₁ (.send s.ctx.sock .nbdBuffer (z.nbdBuffer.take z.byteread.toNat) z.sendflag) = (k, w₂) →
    k.1 ≠ z.byteread.toNat → z.Ok cfg blocksize →
    Q (.ret (.next z)) s w₂ (h ++ [⟨.pread .., r⟩, ⟨.send .., k⟩])
  /-- A chunk is not read, and is tried again. -/
  again : ∀ {x w h p r w₁}, x.Ok cfg blocksize → J x w h → x.sendflag ≠ 0 → s.ctx.p = some p →
    env w (.pread p s.ctx.handle (x.chunk blocksize).bufblksz x.offset) = (r, w₁) → r.ret ≠ 0 →
    x.retry ≠ 0 →
    J { (x.chunk blocksize).fill r.data with retry := x.retry - 1, sendflag := 1 } w₁
      (h ++ [⟨.pread .., r⟩])
  /-- A chunk is not read, and retries have run out: the function returns. -/
  fail : ∀ {x w h p r w₁}, x.Ok cfg blocksize → J x w h → x.sendflag ≠ 0 → s.ctx.p = some p →
    env w (.pread p s.ctx.handle (x.chunk blocksize).bufblksz x.offset) = (r, w₁) → r.ret ≠ 0 →
    x.retry = 0 → Q (.ret (.done (-1))) s w₁ (h ++ [⟨.pread .., r⟩])

variable {env s} {Q : Post Shared Call Resp σ (Ctl Vars ℤ)} {J : Vars → σ → List Ev → Prop}

theorem ReadRules.round (R : ReadRules env s cfg blocksize Q J) {w : σ} {h : List Ev}
    (hx : x.Ok cfg blocksize) (hJ : J x w h) :
    wp env (readChunk cfg blocksize x) (Q.round (fun x' s' w' h' => s' = s ∧ x'.Ok cfg blocksize ∧
      J x' w' h' ∧ (x.Paced → x'.Paced ∧ x'.measure cfg < x.measure cfg)) h) s w := by
  by_cases h0 : x.sendflag = 0
  · refine wp_readChunk_done h0 ?_
    simpa using R.leave hx hJ h0
  cases hp : s.ctx.p with
  | none =>
    refine wp_readChunk_none hp h0 ?_
    simpa using R.null hx hJ h0 hp
  | some p =>
    refine wp_readChunk hp h0 (fun r w₁ hr hok => ?_) (fun r w₁ hr hfail => ?_)
    · have hz := hx.chunk.fill (d := r.data)
      refine wp_sendChunk (fun k w₂ hk hsent => ?_) (fun k w₂ hk hcut => ?_)
      · exact ⟨rfl, hz.advance, R.sent hx hJ h0 hp hr hok hk ((hz.sent_iff k).mp hsent),
          fun hpace => advance_measure hpace h0⟩
      · exact R.cut hx hJ h0 hp hr hok hk (mt (hz.sent_iff k).mpr hcut) hz
    · unfold Vars.tryAgain
      simp only [fill_retry, chunk_retry]
      split_ifs with hretry
      · refine ⟨rfl, ?_, R.again hx hJ h0 hp hr hfail hretry, fun hpace => ?_⟩
        · simpa only [fill_retry, chunk_retry] using
            (hx.chunk.fill (d := r.data)).again
        · have hpace := hpace h0
          unfold Vars.Paced Vars.measure
          simp only [fill_bufblksz, chunk_bufblksz, fill_blkremains, chunk_blkremains, if_neg h0]
          rw [if_neg (by decide)]
          omega
      · exact R.fail hx hJ h0 hp hr hfail (not_not.mp hretry)

/-- The rule for a READ loop. -/
theorem ReadRules.loop (R : ReadRules env s cfg blocksize Q J)
    (hfuel : ∀ x w h, x.Ok cfg blocksize → J x w h → Q (.halt .fuel) s w h) (fuel : ℕ) {w : σ}
    {h : List Ev} (hx : x.Ok cfg blocksize) (hJ : J x w h) :
    wp env (Prog.loop fuel (readChunk cfg blocksize) x) (Q.after h) s w := by
  refine wp_loop env (fun x' s' w' h' => s' = s ∧ x'.Ok cfg blocksize ∧ J x' w' h') ?_ ?_ fuel x s w
    h ⟨rfl, hx, hJ⟩
  · rintro x' _ w' h' ⟨rfl, hx', hJ'⟩
    exact hfuel x' w' h' hx' hJ'
  · rintro x' _ w' h' ⟨rfl, hx', hJ'⟩
    refine wp_mono env ?_ (R.round hx' hJ')
    rintro ((x'' | r) | e) s'' w'' h'' hQ
    · exact ⟨hQ.1, hQ.2.1, hQ.2.2.1⟩
    · exact hQ
    · exact hQ

/-- The rule for a READ loop that is left in time. -/
theorem ReadRules.loop_total (R : ReadRules env s cfg blocksize Q J) {fuel : ℕ}
    (hfuel : x.measure cfg < fuel) {w : σ} {h : List Ev} (hx : x.Ok cfg blocksize)
    (hpace : x.Paced) (hJ : J x w h) :
    wp env (Prog.loop fuel (readChunk cfg blocksize) x) (Q.after h) s w := by
  refine wp_loop_total env (fun x' s' w' h' => s' = s ∧ x'.Ok cfg blocksize ∧ J x' w' h' ∧ x'.Paced)
    (fun x' _ _ => x'.measure cfg) ?_ fuel x s w h hfuel ⟨rfl, hx, hJ, hpace⟩
  rintro x' _ w' h' ⟨rfl, hx', hJ', hp'⟩
  refine wp_mono env ?_ (R.round hx' hJ')
  rintro ((x'' | r) | e) s'' w'' h'' hQ
  · exact ⟨⟨hQ.1, hQ.2.1, hQ.2.2.1, (hQ.2.2.2 hp').1⟩, (hQ.2.2.2 hp').2⟩
  · exact hQ
  · exact hQ

end Read

/-! ### WRITE -/

section Write

variable {σ : Type} (env : Env Call Resp σ) (s : Shared)

/-- The cases of a WRITE loop, for an invariant `J`, of the reply's error too, and a
postcondition `Q`. -/
structure WriteRules (cfg : Config) (blocksize : UInt32)
    (Q : Post Shared Call Resp σ (Vars × UInt32)) (J : Vars → UInt32 → σ → List Ev → Prop) :
    Prop where
  /-- The loop is left when `sendflag` is clear. -/
  leave : ∀ {x e w h}, x.Ok cfg blocksize → J x e w h → x.sendflag = 0 → Q (.ret (x, e)) s w h
  /-- A chunk is received, and there is no `pwrite` to write it. -/
  null : ∀ {x e w h r w₁}, x.Ok cfg blocksize → J x e w h → x.sendflag ≠ 0 →
    (∀ p, s.ctx.p = some p → p.pwrite = false) →
    env w (.recv s.ctx.sock .nbdBuffer (x.chunk blocksize).byteread.toNat) = (r, w₁) →
    r.ret = (x.chunk blocksize).byteread.toNat →
    Q (.halt .undefined) s w₁ (h ++ [⟨.recv .., r⟩])
  /-- A chunk is received, and written. -/
  written : ∀ {x e w h p r w₁ k w₂}, x.Ok cfg blocksize → J x e w h →
    x.sendflag ≠ 0 → s.ctx.p = some p → p.pwrite = true →
    env w (.recv s.ctx.sock .nbdBuffer (x.chunk blocksize).byteread.toNat) = (r, w₁) →
    r.ret = (x.chunk blocksize).byteread.toNat →
    let z := (x.chunk blocksize).fill r.data
    env w₁ (.pwrite p s.ctx.handle z.nbdBuffer z.bufblksz z.offset) = (k, w₂) → k = 0 →
    J (z.advance cfg) e w₂ (h ++ [⟨.recv .., r⟩, ⟨.pwrite .., k⟩])
  /-- A chunk is received, and not written: no more is received. -/
  failed : ∀ {x e w h p r w₁ k w₂}, x.Ok cfg blocksize → J x e w h →
    x.sendflag ≠ 0 → s.ctx.p = some p → p.pwrite = true →
    env w (.recv s.ctx.sock .nbdBuffer (x.chunk blocksize).byteread.toNat) = (r, w₁) →
    r.ret = (x.chunk blocksize).byteread.toNat →
    let z := (x.chunk blocksize).fill r.data
    env w₁ (.pwrite p s.ctx.handle z.nbdBuffer z.bufblksz z.offset) = (k, w₂) → k ≠ 0 →
    J (z.stop.advance cfg) NBD_EIO w₂ (h ++ [⟨.recv .., r⟩, ⟨.pwrite .., k⟩])
  /-- Not all of a chunk is received: no more is. -/
  cut : ∀ {x e w h r w₁}, x.Ok cfg blocksize → J x e w h → x.sendflag ≠ 0 →
    env w (.recv s.ctx.sock .nbdBuffer (x.chunk blocksize).byteread.toNat) = (r, w₁) →
    r.ret ≠ (x.chunk blocksize).byteread.toNat →
    J ((x.chunk blocksize).fill r.data).stop NBD_EOVERFLOW w₁ (h ++ [⟨.recv .., r⟩])

variable {env s} {Q : Post Shared Call Resp σ (Vars × UInt32)} {J : Vars →
  UInt32 → σ → List Ev → Prop}

theorem WriteRules.round (R : WriteRules env s cfg blocksize Q J) {e : UInt32} {w : σ} {h : List Ev}
    (hx : x.Ok cfg blocksize) (hJ : J x e w h) :
    wp env (writeChunk cfg blocksize (x, e))
    (Q.round (fun v s' w' h' => s' = s ∧ v.1.Ok cfg blocksize ∧
      J v.1 v.2 w' h' ∧ (x.Paced → v.1.Paced ∧ v.1.measure cfg < x.measure cfg)) h) s w := by
  by_cases h0 : x.sendflag = 0
  · refine wp_writeChunk_done h0 ?_
    simpa using R.leave hx hJ h0
  have hy := hx.chunk
  have hstop : ∀ d, x.Paced → ((x.chunk blocksize).fill d).stop.Paced ∧
      ((x.chunk blocksize).fill d).stop.measure cfg < x.measure cfg := by
    intro d hpace
    refine ⟨fun hne => absurd rfl hne, ?_⟩
    unfold Vars.measure
    rw [stop_sendflag, if_pos rfl, if_neg h0]
    omega
  refine wp_writeChunk h0 (fun r w₁ hr hok => ?_) (fun r w₁ hr hcut => ?_)
  · have hok' := (hy.received_iff r).mp hok
    by_cases hp : ∃ p, s.ctx.p = some p ∧ p.pwrite = true
    · obtain ⟨p, hp, hw⟩ := hp
      refine wp_pwriteChunk hp hw (fun k w₂ hk h0' => ?_) (fun k w₂ hk hne => ?_)
      · exact ⟨rfl, hy.fill.advance, R.written hx hJ h0 hp hw hr hok' hk h0',
          fun hpace => advance_measure hpace h0⟩
      · refine ⟨rfl, hy.fill.stop.advance, R.failed hx hJ h0 hp hw hr hok' hk hne, fun hpace => ?_⟩
        refine ⟨fun hne => absurd rfl hne, ?_⟩
        have hm := (hstop r.data hpace).2
        unfold Vars.measure at hm ⊢
        rw [stop_sendflag, if_pos rfl] at hm
        rwa [advance_sendflag, stop_sendflag, if_pos rfl]
    · have hp' : ∀ p, s.ctx.p = some p → p.pwrite = false := fun p hp' => by
        simpa using fun hw => hp ⟨p, hp', hw⟩
      exact wp_pwriteChunk_none hp' (R.null hx hJ h0 hp' hr hok')
  · have hcut' := mt (hy.received_iff r).mpr hcut
    exact ⟨rfl, hy.fill.stop, R.cut hx hJ h0 hr hcut', hstop r.data⟩

/-- The rule for a WRITE loop. -/
theorem WriteRules.loop (R : WriteRules env s cfg blocksize Q J)
    (hfuel : ∀ x e w h, x.Ok cfg blocksize → J x e w h → Q (.halt .fuel) s w h)
    (fuel : ℕ) {e : UInt32} {w : σ} {h : List Ev} (hx : x.Ok cfg blocksize) (hJ : J x e w h) :
    wp env (Prog.loop fuel (writeChunk cfg blocksize) (x, e)) (Q.after h) s w := by
  refine wp_loop env (fun v s' w' h' => s' = s ∧ v.1.Ok cfg blocksize ∧ J v.1 v.2 w' h') ?_ ?_ fuel
    (x, e) s w h ⟨rfl, hx, hJ⟩
  · rintro v _ w' h' ⟨rfl, hx', hJ'⟩
    exact hfuel v.1 v.2 w' h' hx' hJ'
  · rintro v _ w' h' ⟨rfl, hx', hJ'⟩
    refine wp_mono env ?_ (R.round hx' hJ')
    rintro ((v' | r) | e) s'' w'' h'' hQ
    · exact ⟨hQ.1, hQ.2.1, hQ.2.2.1⟩
    · exact hQ
    · exact hQ

/-- The rule for a WRITE loop that is left in time. -/
theorem WriteRules.loop_total (R : WriteRules env s cfg blocksize Q J) {fuel : ℕ}
    (hfuel : x.measure cfg < fuel) {e : UInt32} {w : σ} {h : List Ev} (hx : x.Ok cfg blocksize)
    (hpace : x.Paced) (hJ : J x e w h) :
    wp env (Prog.loop fuel (writeChunk cfg blocksize) (x, e)) (Q.after h) s w := by
  refine wp_loop_total env (fun v s' w' h' => s' = s ∧ v.1.Ok cfg blocksize ∧
    J v.1 v.2 w' h' ∧ v.1.Paced) (fun v _ _ => v.1.measure cfg) ?_ fuel (x, e) s w h hfuel
    ⟨rfl, hx, hJ, hpace⟩
  rintro v _ w' h' ⟨rfl, hx', hJ', hp'⟩
  refine wp_mono env ?_ (R.round hx' hJ')
  rintro ((v' | r) | e) s'' w'' h'' hQ
  · exact ⟨⟨hQ.1, hQ.2.1, hQ.2.2.1, (hQ.2.2.2 hp').1⟩, (hQ.2.2.2 hp').2⟩
  · exact hQ
  · exact hQ

end Write

end LwNBD
