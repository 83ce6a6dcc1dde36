import LwNBD.Nbd.Retries

/-!
# Send flags

What the transport is told of a READ: that more is to come, or not. The loop keeps that in
`sendflag`, which says too whether the loop goes on; and when a chunk is to be tried again,
`sendflag` is set so that it does, to `1`, which no send should have. Before the last chunk it is
cleared, so a failure shows unless it was of the last chunk. And an error reply is sent with
whatever `sendflag` was left by the READ before.

## What is proved

* `Flagging.sent`, `Flagging.again` — what a chunk that is sent, and one that is not read, do to
  the flags.
* `round_flags_refused`, `round_flags_accepted` — when the flags of a READ are as they should be.
* `send_flags_iff` — they are if and only if no chunk but the last is read after a failure, and
  an error reply finds `sendflag` clear.
-/

namespace LwNBD

open Resumption

/-! ### What is to be shown -/

/-- The flags the sends of a READ should have: `MSG_MORE` for the reply and for every chunk but the
last, `0` for the last and for an error reply. -/
def flagOf (cfg : Config) (ctx : ContextNbd) (q : NbdRequest) (j : ℕ) : ℤ :=
  if outOfRange ctx.exportsize q then 0
  else if j = 0 then MSG_MORE
  else if q.blocks ctx.minimumBlockSize ≤ j * chunkBlocks cfg ctx.minimumBlockSize then 0
  else MSG_MORE

/-- The flags are as they should be, in a READ's round with calls `h`. -/
def FlagsRight (cfg : Config) (ctx : ContextNbd) (q : NbdRequest) (h : List Ev) : Prop :=
  ∀ (j : ℕ) (buf : Bytes) (flags : ℤ), (sendsWith h)[j]? = some (buf, flags) →
    flags = flagOf cfg ctx q j

/-- The result of a `pread`. -/
def preadRet : Ev → Option ℤ
  | ⟨.pread .., r⟩ => some r.ret
  | _ => none

/-- The last call was a `pread` that failed. -/
def LastFails (h : List Ev) : Prop := ∃ h₁ e r, h = h₁ ++ [e] ∧ preadRet e = some r ∧ r ≠ 0

/-- A chunk that is not the last is read after a failure: a `pread` fails, the next succeeds, and
blocks are left after the chunk. The reply and the chunks before have been sent. -/
def EarlyRetry (cfg : Config) (blocksize : UInt32) (q : NbdRequest) (h : List Ev) : Prop :=
  ∃ h₁ e e' r h₂, h = h₁ ++ e :: e' :: h₂ ∧ preadRet e = some r ∧ r ≠ 0 ∧ preadRet e' = some 0 ∧
    ¬ q.blocks blocksize ≤ (sendsWith h₁).length * chunkBlocks cfg blocksize

variable {σ : Type} {env : Env Call Resp σ} {cfg : Config} {fuel : ℕ} {blocksize : UInt32}
  {s : Shared} {w : σ}
variable {c : ReqHead σ} {p : Plugin} {ctx : ContextNbd} {q : NbdRequest} {x : Vars}
  {h : List Ev} {e : Ev} {i : ℕ}

/-! ### One call more -/

theorem sendsWith_of_preadRet {r : ℤ} (he : preadRet e = some r) : sendsWith [e] = [] := by
  obtain ⟨e, a⟩ := e
  cases e <;> first | rfl | simp [preadRet] at he

/-- A call adds to what was retried only if it reads a chunk after a failure. -/
theorem earlyRetry_concat : EarlyRetry cfg blocksize q (h ++ [e]) ↔ EarlyRetry cfg blocksize q h ∨
    LastFails h ∧ preadRet e = some 0 ∧ ¬ q.blocks blocksize ≤ (sendsWith h).length *
    chunkBlocks cfg blocksize := by
  constructor
  · rintro ⟨h₁, e₁, e₂, r, h₂, heq, hr, hne, hok, hblocks⟩
    rcases List.eq_nil_or_concat h₂ with rfl | ⟨h₃, e₃, rfl⟩
    · obtain ⟨rfl, he⟩ := List.append_inj' (heq.trans (List.append_cons h₁ e₁ [e₂])) rfl
      cases he
      refine .inr ⟨⟨h₁, e₁, r, rfl, hr, hne⟩, hok, ?_⟩
      rwa [sendsWith_append, sendsWith_of_preadRet hr, List.append_nil]
    · rw [List.concat_eq_append, ← List.cons_append, ← List.cons_append, ← List.append_assoc] at heq
      exact .inl ⟨h₁, e₁, e₂, r, h₃, (List.append_inj' heq rfl).1, hr, hne, hok, hblocks⟩
  · rintro (⟨h₁, e₁, e₂, r, h₂, rfl, hr, hne, hok, hblocks⟩ | ⟨⟨h₁, e₁, r, rfl, hr, hne⟩, hok,
      hblocks⟩)
    · exact ⟨h₁, e₁, e₂, r, h₂ ++ [e], by simp, hr, hne, hok, hblocks⟩
    · rw [sendsWith_append, sendsWith_of_preadRet hr, List.append_nil] at hblocks
      exact ⟨h₁, e₁, e, r, [], by simp, hr, hne, hok, hblocks⟩

theorem lastFails_concat : LastFails (h ++ [e]) ↔ ∃ r, preadRet e = some r ∧ r ≠ 0 := by
  constructor
  · rintro ⟨h₁, e₁, r, heq, hr, hne⟩
    obtain ⟨-, he⟩ := List.append_inj' heq rfl
    cases he
    exact ⟨r, hr, hne⟩
  · rintro ⟨r, hr, hne⟩
    exact ⟨h, e, r, rfl, hr, hne⟩

/-- A call that is no send leaves the flags as they are. -/
theorem flagsRight_concat (he : sendsWith [e] = []) :
    FlagsRight cfg ctx q (h ++ [e]) ↔ FlagsRight cfg ctx q h := by
  unfold FlagsRight
  rw [sendsWith_append, he, List.append_nil]

theorem flagsRight_concat_send {sock : ℤ} {obj : Obj} {buf : Bytes} {flags : ℤ}
    {k : Sent buf.length} : FlagsRight cfg ctx q (h ++ [⟨.send sock obj buf flags, k⟩]) ↔
      FlagsRight cfg ctx q h ∧ flags = flagOf cfg ctx q (sendsWith h).length := by
  have hsends : sendsWith (h ++ [⟨.send sock obj buf flags, k⟩]) = sendsWith h ++
      [(buf, flags)] := by
    rw [sendsWith_append]
    rfl
  unfold FlagsRight
  rw [hsends]
  constructor
  · intro hall
    refine ⟨fun j b f hj => hall j b f ?_,
      hall (sendsWith h).length buf flags List.getElem?_concat_length⟩
    rw [List.getElem?_append_left (List.getElem?_eq_some_iff.mp hj).1]
    exact hj
  · rintro ⟨hall, hf⟩ j b f hj
    rcases Nat.lt_or_ge j (sendsWith h).length with hlt | hge
    · rw [List.getElem?_append_left hlt] at hj
      exact hall j b f hj
    · rw [List.getElem?_append_right hge, List.getElem?_singleton] at hj
      split_ifs at hj with h0
      cases hj
      rw [hf, Nat.le_antisymm hge (Nat.le_of_sub_eq_zero h0)]

/-! ### The loop of a READ -/

/-- What holds in the loop of a READ that was accepted, after `i` chunks. -/
structure Flagging (cfg : Config) (ctx : ContextNbd) (q : NbdRequest) (x : Vars) (h : List Ev)
    (i : ℕ) : Prop where
  /-- So many chunks were served. -/
  serving : x.Serving cfg ctx.minimumBlockSize q i
  /-- The reply was sent, and these chunks. -/
  count : (sendsWith h).length = i + 1
  /-- The flags are right unless a chunk was read after a failure. -/
  right : FlagsRight cfg ctx q h ↔ ¬ EarlyRetry cfg ctx.minimumBlockSize q h
  /-- `sendflag` is clear, or `MSG_MORE` and the chunk at hand has not failed, or else `1`, and it
  has or one before was read after a failure. -/
  flag : x.sendflag = 0 ∨ x.sendflag = MSG_MORE ∧ ¬ LastFails h ∨
    x.sendflag = 1 ∧ (LastFails h ∨ EarlyRetry cfg ctx.minimumBlockSize q h)

theorem flagOf_zero (hr : outOfRange ctx.exportsize q = false) : flagOf cfg ctx q 0 = MSG_MORE := by
  rw [flagOf, hr, if_neg Bool.false_ne_true, if_pos rfl]

theorem flagOf_succ (hr : outOfRange ctx.exportsize q = false) (i : ℕ) : flagOf cfg ctx q (i + 1) =
    if q.blocks ctx.minimumBlockSize ≤ (i + 1) * chunkBlocks cfg ctx.minimumBlockSize then 0
    else MSG_MORE := by
  rw [flagOf, hr, if_neg Bool.false_ne_true, if_neg (Nat.succ_ne_zero i)]

namespace Flagging

variable {handle : Handle} {n : UInt32} {o : UInt64} {r : Pread}

theorem sent (hr : outOfRange ctx.exportsize q = false) (hi : Flagging cfg ctx q x h i)
    (hne : x.sendflag ≠ 0) (hok : r.ret = 0) {sock flags : ℤ} {buf : Bytes} {k : Sent buf.length}
    (hflags : (x.chunk ctx.minimumBlockSize).sendflag = flags) :
    Flagging cfg ctx q (((x.chunk ctx.minimumBlockSize).fill r.data).advance cfg)
      (h ++ [⟨.pread p handle n o, r⟩, ⟨.send sock .nbdBuffer buf flags, k⟩]) (i + 1) := by
  have hlast := hi.serving.last
  have hright := hi.right
  have hcount := hi.count
  have hread : preadRet ⟨.pread p handle n o, r⟩ = some 0 := congrArg some hok
  have hsend : preadRet ⟨.send sock .nbdBuffer buf flags, k⟩ = none := rfl
  rw [List.append_cons]
  have hearly : EarlyRetry cfg ctx.minimumBlockSize q
      ((h ++ [⟨.pread p handle n o, r⟩]) ++ [⟨.send sock .nbdBuffer buf flags, k⟩]) ↔
        EarlyRetry cfg ctx.minimumBlockSize q h ∨
          LastFails h ∧ ¬ q.blocks ctx.minimumBlockSize ≤ (i + 1) *
          chunkBlocks cfg ctx.minimumBlockSize := by
    rw [earlyRetry_concat, earlyRetry_concat, hread, hsend, hcount]
    simp
  have hnew : FlagsRight cfg ctx q
      ((h ++ [⟨.pread p handle n o, r⟩]) ++ [⟨.send sock .nbdBuffer buf flags, k⟩]) ↔
        FlagsRight cfg ctx q h ∧ flags = flagOf cfg ctx q (i + 1) := by
    rw [flagsRight_concat_send, flagsRight_concat (sendsWith_of_preadRet hread), sendsWith_append,
      sendsWith_of_preadRet hread, List.append_nil, hcount]
  have hfails :
      ¬ LastFails ((h ++ [⟨.pread p handle n o, r⟩]) ++
      [⟨.send sock .nbdBuffer buf flags, k⟩]) := by
    rw [lastFails_concat, hsend]
    simp
  rw [flagOf_succ hr] at hnew
  rw [hflags] at hlast
  refine ⟨hi.serving.advance, ?_, ?_, ?_⟩
  · rw [sendsWith_append, sendsWith_append, sendsWith_of_preadRet hread, List.length_append,
      List.append_nil, hcount]
    rfl
  · rw [hnew, hearly, hright, hlast]
    -- the last chunk is sent with `0` whatever came before; the others with what `sendflag` is
    by_cases hle : q.blocks ctx.minimumBlockSize ≤ (i + 1) * chunkBlocks cfg ctx.minimumBlockSize
    · simp [hle]
    · rcases hi.flag with h0 | ⟨hmore, hnot⟩ | ⟨hone, hfailed⟩
      · exact absurd h0 hne
      · simp [hle, hmore, hnot]
      · have hwrong : (1 : ℤ) ≠ MSG_MORE := by decide
        simp only [hle, if_false, hone, hwrong, and_false, not_false_eq_true,
          and_true, false_iff, not_not]
        exact hfailed.symm
  · show (x.chunk ctx.minimumBlockSize).sendflag = 0 ∨
      (x.chunk ctx.minimumBlockSize).sendflag = MSG_MORE ∧ _ ∨
      (x.chunk ctx.minimumBlockSize).sendflag = 1 ∧ _
    rw [hearly, hflags]
    by_cases hle : q.blocks ctx.minimumBlockSize ≤ (i + 1) * chunkBlocks cfg ctx.minimumBlockSize
    · exact .inl (hlast.trans (if_pos hle))
    · have hsame : flags = x.sendflag := hlast.trans (if_neg hle)
      rcases hi.flag with h0 | ⟨hmore, -⟩ | ⟨hone, hfailed⟩
      · exact absurd h0 hne
      · exact .inr (.inl ⟨hsame.trans hmore, hfails⟩)
      · exact .inr (.inr ⟨hsame.trans hone, .inr (hfailed.symm.imp_right fun hf => ⟨hf, hle⟩)⟩)

theorem again (hi : Flagging cfg ctx q x h i) (hfail : r.ret ≠ 0) :
    Flagging cfg ctx q { (x.chunk ctx.minimumBlockSize).fill r.data with
      retry := x.retry - 1, sendflag := 1 } (h ++ [⟨.pread p handle n o, r⟩]) i := by
  have hread : preadRet ⟨.pread p handle n o, r⟩ = some r.ret := rfl
  refine ⟨hi.serving.chunk.congr rfl rfl rfl, ?_, ?_, .inr (.inr ⟨rfl, .inl ?_⟩)⟩
  · rw [sendsWith_append, sendsWith_of_preadRet hread, List.append_nil]
    exact hi.count
  · rw [flagsRight_concat (sendsWith_of_preadRet hread), earlyRetry_concat, hread, hi.right]
    simp [hfail]
  · exact lastFails_concat.mpr ⟨r.ret, hread, hfail⟩

end Flagging

/-- The chunks of a READ that was accepted, and their flags. -/
theorem flagging_rules (hr : outOfRange s.ctx.exportsize q = false) :
    ReadRules env s cfg s.ctx.minimumBlockSize
      (fun _ _ _ h => FlagsRight cfg s.ctx q h ↔ ¬ EarlyRetry cfg s.ctx.minimumBlockSize q h)
      (fun x _ h => ∃ i, Flagging cfg s.ctx q x h i) where
  leave := by
    rintro x w h - ⟨i, hi⟩ -
    exact hi.right
  null := by
    rintro x w h - ⟨i, hi⟩ - -
    exact hi.right
  sent := by
    rintro x w h p r w₁ k w₂ - ⟨i, hi⟩ hne - - hok z - -
    exact ⟨i + 1, hi.sent hr hne hok rfl⟩
  cut := by
    rintro x w h p r w₁ k w₂ - ⟨i, hi⟩ hne - - hok z - - -
    exact (hi.sent hr hne hok rfl).right
  again := by
    rintro x w h p r w₁ - ⟨i, hi⟩ - - - hfail -
    exact ⟨i, hi.again hfail⟩
  fail := by
    rintro x w h p r w₁ - ⟨i, hi⟩ - - - hfail -
    exact (hi.again hfail).right

/-- What holds in the round of a READ that was refused, `sendflag` having been `f`: if it was clear,
the reply is all that is sent, and if not, the reply is wrong already. -/
structure Refusing (f : ℤ) (x : Vars) (h : List Ev) : Prop where
  /-- The loop is not entered. -/
  clear : f = 0 → x.sendflag = 0 ∧ ∃ buf, sendsWith h = [(buf, 0)]
  /-- The reply was sent with `f`. -/
  stale : f ≠ 0 → ∃ buf, (sendsWith h)[0]? = some (buf, f)

namespace Refusing

variable {f : ℤ} {y : Vars} {h' : List Ev}

/-- What the loop sends does not change the reply. -/
theorem more (hi : Refusing f x h) (hne : x.sendflag ≠ 0) : Refusing f y (h ++ h') := by
  have hf : f ≠ 0 := fun h0 => hne (hi.clear h0).1
  refine ⟨fun h0 => absurd h0 hf, fun _ => ?_⟩
  obtain ⟨buf, hbuf⟩ := hi.stale hf
  refine ⟨buf, ?_⟩
  rw [sendsWith_append, List.getElem?_append_left (List.getElem?_eq_some_iff.mp hbuf).1]
  exact hbuf

theorem right (hr : outOfRange ctx.exportsize q = true) (hi : Refusing f x h) :
    FlagsRight cfg ctx q h ↔ f = 0 := by
  have hzero (j : ℕ) : flagOf cfg ctx q j = 0 := if_pos hr
  constructor
  · intro hright
    by_contra hne
    obtain ⟨buf, hbuf⟩ := hi.stale hne
    exact hne ((hright 0 buf f hbuf).trans (hzero 0))
  · intro h0 j buf flags hj
    obtain ⟨-, buf', hs⟩ := hi.clear h0
    rw [hs, List.getElem?_singleton] at hj
    split_ifs at hj
    cases hj
    exact (hzero j).symm

end Refusing

/-- The chunks of a READ that was refused: what `sendflag` was left set for. -/
theorem refusing_rules (hr : outOfRange s.ctx.exportsize q = true) (f : ℤ) :
    ReadRules env s cfg blocksize (fun _ _ _ h => FlagsRight cfg s.ctx q h ↔ f = 0)
    (fun x _ h => Refusing f x h) where
  leave := fun _ hi _ => hi.right hr
  null := fun _ hi _ _ => hi.right hr
  sent := fun _ hi hne _ _ _ _ _ => hi.more hne
  cut := by
    rintro x w h p r w₁ k w₂ - hi hne - - - z - - -
    exact (hi.more hne (y := z)).right hr
  again := fun _ hi hne _ _ _ _ => hi.more hne
  fail := by
    rintro x w h p r w₁ - hi hne - - - -
    exact (hi.more hne (y := x)).right hr

/-! ### A round -/

/-- A READ that is accepted has its flags right if no chunk but the last is read after a failure. -/
theorem round_flags_accepted (hc : c.x.Ok cfg c.mem.ctx.minimumBlockSize)
    (hq : requestAt env c = some q) (ht : q.type = NBD_CMD_READ)
    (hr : outOfRange c.mem.ctx.exportsize q = false) :
    wp env (serveIn cfg fuel c.mem c.x) (fun _ _ _ h => FlagsRight cfg c.mem.ctx q h ↔
      ¬ EarlyRetry cfg c.mem.ctx.minimumBlockSize q h) c.mem c.env := by
  have hnone (h : List Ev) (hh : ∀ e ∈ h, preadRet e = none) :
      ¬ EarlyRetry cfg c.mem.ctx.minimumBlockSize q h := by
    rintro ⟨h₁, e, e', r, h₂, rfl, he, -⟩
    rw [hh e (by simp)] at he
    cases he
  have hhead : FlagsRight cfg c.mem.ctx q (headerAt env c q) := by
    unfold FlagsRight
    rw [sendsWith_headerAt]
    simp
  have hjust : FlagsRight cfg c.mem.ctx q (headerAt env c q) ↔
      ¬ EarlyRetry cfg c.mem.ctx.minimumBlockSize q (headerAt env c q) :=
    iff_of_true hhead (hnone _ (by simp [headerAt, preadRet]))
  have H : RoundRules env cfg c.mem.ctx.minimumBlockSize c q
      (fun _ _ _ h => FlagsRight cfg c.mem.ctx q h ↔
      ¬ EarlyRetry cfg c.mem.ctx.minimumBlockSize q h)
      (fun x _ h => ∃ i, Flagging cfg c.mem.ctx q x h i) (fun _ _ _ _ => False) := by
    refine RoundRules.of_read ht (flagging_rules hr) (fun hr' => ?_)
      (fun _ _ k w₁ _ => ?_) (fun _ _ => hjust)
    · rw [hr] at hr'
      cases hr'
    · refine ⟨0, accept_serving, rfl, ?_, .inr (.inl ⟨accept_sendflag, ?_⟩)⟩
      · rw [flagsRight_concat_send]
        refine iff_of_true ⟨hhead, ?_⟩ (hnone _ (by simp [headerAt, preadRet]))
        rw [sendsWith_headerAt, List.length_nil, flagOf_zero hr]
      · rw [lastFails_concat]
        simp [preadRet]
  exact H.round hq (fun _ _ _ _ hI => hI.elim fun _ hi => hi.right) (fun _ _ _ _ _ hJ => hJ.elim) hc

/-- A READ that is refused has its flags right if it finds `sendflag` clear. -/
theorem round_flags_refused (hc : c.x.Ok cfg c.mem.ctx.minimumBlockSize)
    (hq : requestAt env c = some q) (ht : q.type = NBD_CMD_READ)
    (hr : outOfRange c.mem.ctx.exportsize q = true) :
    wp env (serveIn cfg fuel c.mem c.x) (fun _ _ _ h => FlagsRight cfg c.mem.ctx q h ↔
      c.x.sendflag = 0)
      c.mem c.env := by
  have H : RoundRules env cfg c.mem.ctx.minimumBlockSize c q
      (fun _ _ _ h => FlagsRight cfg c.mem.ctx q h ↔ c.x.sendflag = 0)
      (fun x _ h => Refusing c.x.sendflag x h) (fun _ _ _ _ => False) := by
    refine RoundRules.of_read ht (refusing_rules hr c.x.sendflag)
      (fun _ k w₁ _ => ⟨fun h0 => ?_, fun _ => ?_⟩) (fun hr' => ?_) (fun hr' => ?_)
    · exact ⟨h0, simpleReply NBD_EIO q.handle, congrArg (fun f => [(_, f)]) h0⟩
    · exact ⟨simpleReply NBD_EIO q.handle, rfl⟩
    · rw [hr] at hr'
      cases hr'
    · rw [hr] at hr'
      cases hr'
  exact H.round hq (fun _ _ _ _ hi => hi.right hr) (fun _ _ _ _ _ hJ => hJ.elim) hc

/-! ### Every READ -/

/-- **Send flags.** Whatever the plugin and the transport do and whatever was requested before, the
flags of a READ are as they should be if and only if, being accepted, no chunk of it but the last is
read after a failure, and being refused, it finds `sendflag` clear. -/
theorem send_flags_iff (env : Env Call Resp σ) (cfg : Config) (fuel : ℕ) (s : Shared)
    (w : σ) (c : ReqHead σ) (hc : AtRequest env cfg fuel (fun _ => True) s w c) (q : NbdRequest)
    (hq : requestAt env c = some q) (ht : q.type = NBD_CMD_READ) :
    FlagsRight cfg s.ctx q (roundAt env cfg fuel c).trace ↔
      (outOfRange s.ctx.exportsize q = false →
        ¬ EarlyRetry cfg s.ctx.minimumBlockSize q (roundAt env cfg fuel c).trace) ∧
      (outOfRange s.ctx.exportsize q = true → c.x.sendflag = 0) := by
  obtain ⟨rfl, hok⟩ := hc.frame
  cases hr : outOfRange c.mem.ctx.exportsize q with
  | false =>
    have hround : FlagsRight cfg c.mem.ctx q (roundAt env cfg fuel c).trace ↔
        ¬ EarlyRetry cfg c.mem.ctx.minimumBlockSize q (roundAt env cfg fuel c).trace :=
      round_flags_accepted hok hq ht hr
    simp [hround]
  | true =>
    have hround : FlagsRight cfg c.mem.ctx q (roundAt env cfg fuel c).trace ↔ c.x.sendflag = 0 :=
      round_flags_refused hok hq ht hr
    simp [hround]

namespace Sample

/-- The reply and the three chunks of a READ of five bytes, of which none fails. -/
theorem send_flags_iff_chunks : FlagsRight Sample.cfg mem.ctx (ask NBD_CMD_READ 0 5)
    (roundAt (wire quiet) Sample.cfg 8 (firstHead (wire quiet) Sample.cfg mem
      (client (ask NBD_CMD_READ 0 5).toBytes))).trace := by
  have hnone : (roundAt (wire quiet) Sample.cfg 8 (firstHead (wire quiet) Sample.cfg mem
      (client (ask NBD_CMD_READ 0 5).toBytes))).trace.all fun e => (preadRet e).getD 0 = 0 := by
    decide +kernel
  refine (send_flags_iff (wire quiet) Sample.cfg 8 mem (client (ask NBD_CMD_READ 0 5).toBytes) _
    .refl (ask NBD_CMD_READ 0 5) (by decide +kernel) rfl).mpr ⟨fun _ => ?_,
    fun hr => absurd hr (by decide)⟩
  rintro ⟨h₁, e, e', r, h₂, heq, hr, hne, -⟩
  have he := of_decide_eq_true (List.all_eq_true.mp hnone e (by rw [heq]; simp))
  rw [hr] at he
  exact hne he

/-- **A chunk that is read at the second try is sent with flags `1`**: the first of the two of a
READ of four bytes. -/
theorem send_flags_wrong :
    ¬ ∀ (σ : Type) (env : Env Call Resp σ) (cfg : Config) (fuel : ℕ) (s :
      Shared) (w : σ) (c : ReqHead σ), 1 ≤ s.ctx.minimumBlockSize.toNat →
      s.ctx.minimumBlockSize.toNat ≤ cfg.bufferLen → AtRequest env cfg fuel (fun _ => True) s w c →
      ∀ q, requestAt env c = some q → q.type = NBD_CMD_READ →
      (roundAt env cfg fuel c).out ≠ .ret (.done (-1)) →
      FlagsRight cfg s.ctx q (roundAt env cfg fuel c).trace := by
  intro h
  have hright := h _ (wire flaky) Sample.cfg 8 mem ⟨(ask NBD_CMD_READ 0 4).toBytes, [], 0⟩ _
    (by decide) (by decide)
    .refl (ask NBD_CMD_READ 0 4) (by decide +kernel) rfl (by decide +kernel)
  exact absurd (hright 1 [1, 2] 1 (by decide +kernel)) (by decide)

end Sample

end LwNBD
