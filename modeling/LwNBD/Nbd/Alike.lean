import LwNBD.Core.Table
import LwNBD.Resumption.Interleave
import LwNBD.Nbd.Session

/-!
# What a session sees and says

The sessions of a server share its record and the context table. Most of what they write there is
seen by none of them: the phase in `ctx->state`, which only a log line reads, and the sizes in the
context table, which nothing reads again. The contexts that other sessions take when they start are
seen in the answer to an `NBD_OPT_LIST` only: they have no name, so the search for a name finds the
session's own first. So whatever other sessions do, a session goes on alike up to such an answer;
and over which socket it talks is settled by its phase: the greeting, and what it reads in the
handshake, go over the client's own socket, everything else over `ctx->sock`.

## The model

* `Looks` — a memory looks like another, but for what sessions write.
* `Sees` — it does, but for what sessions write and the contexts they take.
* `Call.viaCtx`, `Speaks` — the calls that go over `ctx->sock`, and the socket of a call.
* `Call.lists` — what answers an `NBD_OPT_LIST`.
* `Alike` — two programs agree, as sessions do.

## What is proved

* `handshake_alike`, `transmissionPhase_alike` — the phases agree with themselves, whatever they
  see of the memory besides.
* `session_alike` — so does a session, and it stays in the phase it started in.
-/

namespace LwNBD

open Resumption

/-! ### What is seen -/

/-- The memory `s` looks like `s₀`. -/
structure Looks (s₀ s : Shared) : Prop where
  /-- The record is as it was, but for its phase. -/
  ctx : s.ctx = { s₀.ctx with state := s.ctx.state }
  /-- The contexts are as they were, but for their sizes. -/
  contexts : ∀ i, s.reg.get i = { s₀.reg.get i with exportsize := (s.reg.get i).exportsize }
  /-- The same slots are taken. -/
  status : s.reg.status = s₀.reg.status

theorem Looks.refl (s : Shared) : Looks s s := ⟨rfl, fun _ => rfl, rfl⟩

theorem Looks.contextsCount {s₀ s : Shared} (h : Looks s₀ s) :
    s.reg.contextsCount = s₀.reg.contextsCount := by
  rw [Registry.contextsCount, Registry.firstFree, h.status]
  rfl

/-- The contexts that are still to be taken have no names. -/
def Registry.Fresh (reg : Registry) : Prop :=
  ∀ i : ContextIdx, reg.contextsCount ≤ i → (reg.get i).name = []

/-- The memory `s` looks like `s₀`, but that sessions may have taken contexts since, if `more`. -/
structure Sees (more : Prop) (s₀ s : Shared) : Prop where
  /-- The record is as it was, but for its phase. -/
  ctx : s.ctx = { s₀.ctx with state := s.ctx.state }
  /-- The contexts are as they were, but for their sizes. -/
  contexts : ∀ i, s.reg.get i = { s₀.reg.get i with exportsize := (s.reg.get i).exportsize }
  /-- None is given back. -/
  count : s₀.reg.contextsCount ≤ s.reg.contextsCount
  /-- The same slots are taken. -/
  status : ¬ more → s.reg.status = s₀.reg.status
  /-- Those that may be taken have no names, and neither has one that was taken. -/
  fresh : more → s₀.reg.Fresh ∧ ∃ b : ContextIdx, b < s₀.reg.contextsCount ∧
    (s₀.reg.get b).name = []

variable {more : Prop} {s₀ s : Shared}

theorem Sees.refl (s : Shared) : Sees False s s :=
  ⟨rfl, fun _ => rfl, Nat.le_refl _, fun _ => rfl, False.elim⟩

theorem Sees.looks (h : Sees False s₀ s) : Looks s₀ s := ⟨h.ctx, h.contexts, h.status id⟩

theorem Sees.state (h : Sees more s₀ s) (st : ClientState) :
    Sees more s₀ { s with ctx := { s.ctx with state := st } } where
  ctx := by rw [h.ctx]
  contexts := h.contexts
  count := h.count
  status := h.status
  fresh := h.fresh

theorem Sees.exportsize (h : Sees more s₀ s) (i : ContextIdx) (size : Int64) :
    Sees more s₀ { s with reg := s.reg.update i fun c => { c with exportsize := size } } where
  ctx := h.ctx
  contexts := by
    intro j
    by_cases hj : j = i
    · subst hj
      rw [Registry.get_update, h.contexts j]
    · rw [Registry.get_update_ne _ _ hj]
      exact h.contexts j
  count := h.count
  status := h.status
  fresh := h.fresh

theorem Sees.getContextString (h : Sees more s₀ s) (name : Bytes) :
    s.reg.getContextString name = s₀.reg.getContextString name := by
  have hname (i : ContextIdx) : (s.reg.get i).name = (s₀.reg.get i).name := by rw [h.contexts i]
  by_cases hmore : more
  · obtain ⟨hfresh, b, hb, hblank⟩ := h.fresh hmore
    exact Registry.getContextString_of_blank hname h.count hfresh hb hblank name
  · have hcount : s.reg.contextsCount = s₀.reg.contextsCount := by
      rw [Registry.contextsCount, Registry.firstFree, h.status hmore]
      rfl
    unfold Registry.getContextString
    rw [hcount]
    congr 1
    funext i
    rw [hname]

/-! ### What is said -/

/-- A note, which is no call of the code's. -/
def Call.isNote : Call → Prop
  | .note _ => True
  | _ => False

/-- The socket of a call. -/
def Call.sock? : Call → Option ℤ
  | .send k _ _ _ | .recv k _ _ => some k
  | _ => none

/-- A call that goes over `ctx->sock`: in the transmission phase all do, in the handshake all that
is sent but the greeting. -/
def Call.viaCtx (st : ClientState) : Call → Bool
  | .send _ obj _ _ => st = .transmission ∨ obj ≠ .newHs
  | .recv .. => st = .transmission
  | _ => false

/-- A call of a session in phase `st`, whose client is on socket `sock`. -/
def Speaks (st : ClientState) (sock : ℤ) (ctx : ContextNbd) (e : Call) : Prop :=
  ¬ e.isNote ∧ ∀ k, e.sock? = some k → k = if e.viaCtx st then ctx.sock else sock

/-- A call that answers an `NBD_OPT_LIST`: an option reply with that option in its header. -/
def Call.lists : Call → Bool
  | .send _ .fixedNewOptionReply buf _ => buf.slice 8 4 = toBe32 NBD_OPT_LIST
  | _ => false

/-- Two programs agree, as sessions do that are in phase `st`, with a client on socket `sock`. -/
abbrev Alike (more : Prop) (s₀ : Shared) (st : ClientState) (sock : ℤ) {α β : Type}
    (ρ : α → β → Prop) : Server α → Server β → Prop :=
  Agree (Speaks st sock s₀.ctx) Call.isNote (fun e => e.lists) (Sees more s₀) ρ

variable {st : ClientState} {sock : ℤ} {α β γ δ : Type} {ρ : α → β → Prop} {ρ' : γ → δ → Prop}

/-! ### Rules -/

theorem alike_ctxNow {f : ContextNbd → Server α} {f' : ContextNbd → Server β}
    (h : ∀ t t', Alike more s₀ st sock ρ (f { s₀.ctx with state := t })
  (f' { s₀.ctx with state := t' })) :
    Alike more s₀ st sock ρ (ctxNow >>= f) (ctxNow >>= f') := by
  refine .get fun s s' hs hs' => ?_
  change Alike more s₀ st sock ρ (f s.ctx) (f' s'.ctx)
  rw [hs.ctx, hs'.ctx]
  exact h _ _

theorem alike_note {n n' : Note} {f : Unit → Server α} {f' : Unit → Server β}
    (h : Alike more s₀ st sock ρ (f ()) (f' ())) :
    Alike more s₀ st sock ρ (note n >>= f) (note n' >>= f') :=
  .silent trivial trivial fun _ _ => h

theorem alike_call {e : Call} {f : Resp e → Server α} {f' : Resp e → Server β}
    (he : Speaks st sock s₀.ctx e) (h : ∀ r, Alike more s₀ st sock ρ (f r) (f' r)) :
    Alike more s₀ st sock ρ (Prog.perform e >>= f) (Prog.perform e >>= f') := .call he h

theorem alike_state {t : ClientState} {f : Unit → Server α} {f' : Unit → Server β}
    (h : Alike more s₀ st sock ρ (f ()) (f' ())) :
    Alike more s₀ st sock ρ (Prog.modify (fun s => { s with ctx := { s.ctx with state := t } }) >>=
  f)
      (Prog.modify (fun s => { s with ctx := { s.ctx with state := t } }) >>= f') :=
  (Agree.modify fun _ hs => hs.state t).bind fun _ _ _ => h

theorem alike_ite {p : Prop} [Decidable p] {x y : Server α} {x' y' : Server β}
    (hx : p → Alike more s₀ st sock ρ x x') (hy : ¬p → Alike more s₀ st sock ρ y y') :
    Alike more s₀ st sock ρ (if p then x else y) (if p then x' else y') := by
  split_ifs with h
  · exact hx h
  · exact hy h

theorem speaks_ctx {e : Call} (hn : ¬ e.isNote)
    (hk : ∀ k, e.sock? = some k → k = s₀.ctx.sock ∧ e.viaCtx st = true) : Speaks st sock s₀.ctx e :=
  ⟨hn, fun k h => by rw [if_pos (hk k h).2]; exact (hk k h).1⟩

/-- What is read and sent over the client's socket. -/
theorem speaks_own {e : Call} (hn : ¬ e.isNote)
    (hk : ∀ k, e.sock? = some k → k = sock ∧ e.viaCtx st = false) : Speaks st sock s₀.ctx e :=
  ⟨hn, fun k h => by rw [(hk k h).2]; exact (hk k h).1⟩

/-! ### The handshake -/

section Handshake

variable {c₀ : NbdClient} {cfg : Config} {fuel : ℕ}

/-- The client's record is as it was, but for the context selected. -/
def NbdClient.Keeps (c₀ c : NbdClient) : Prop := c.sock = c₀.sock ∧ c.state = c₀.state

/-- The same client, which has selected a context in both records, or none. -/
def NbdClient.Like (c c' : NbdClient) : Prop :=
  ∃ e, c' = { c with ctx := e } ∧ (e = none ↔ c.ctx = none)

theorem NbdClient.Like.refl (c : NbdClient) : c.Like c := ⟨c.ctx, rfl, Iff.rfl⟩

/-- The same result, and the same client, which keeps its socket and its phase. -/
def SameClient (c₀ : NbdClient) (a b : ℤ × NbdClient) : Prop :=
  a.1 = b.1 ∧ a.2.Like b.2 ∧ c₀.Keeps a.2

/-- The same variables of the option loop. -/
def SameVars (c₀ : NbdClient) (x x' : OptVars) : Prop :=
  x.c.Like x'.c ∧ x'.newOpt = x.newOpt ∧ x'.nbdBuffer = x.nbdBuffer ∧ c₀.Keeps x.c

theorem SameVars.client {x x' : OptVars} (h : SameVars c₀ x x') (r : ℤ) :
    SameClient c₀ (r, x.c) (r, x'.c) :=
  ⟨rfl, h.1, h.2.2.2⟩

theorem greet_alike {c : NbdClient} (hc : c₀.Like c) :
    Alike more s₀ .handshake c₀.sock Eq (greet c₀) (greet c) := by
  obtain ⟨e, rfl, -⟩ := hc
  refine alike_call (speaks_own id (by simp [Call.sock?])) fun cflags => ?_
  refine alike_ctxNow fun t t' => ?_
  refine alike_call (speaks_own id (by simp [Call.sock?, Call.viaCtx])) fun size => ?_
  refine alike_ite (fun _ => .pure rfl) fun _ => ?_
  refine alike_call (speaks_own id (by simp [Call.sock?, Call.viaCtx])) fun r => ?_
  refine alike_ite (fun _ => .pure rfl) fun _ => ?_
  refine alike_ctxNow fun t t' => ?_
  exact alike_ite (fun _ => .pure rfl) fun _ => .pure rfl

theorem readNewOption_alike {x x' : OptVars} (hx : SameVars c₀ x x') :
    Alike more s₀ .handshake c₀.sock Eq (readNewOption x) (readNewOption x') := by
  obtain ⟨c', newOpt', nbdBuffer'⟩ := x'
  obtain ⟨⟨e, rfl, -⟩, rfl, rfl, hkeep⟩ := hx
  refine alike_call (speaks_own id (by simp [Call.sock?, Call.viaCtx, hkeep.1])) fun r => ?_
  refine alike_ite (fun _ => .pure rfl) fun _ => ?_
  exact alike_ite (fun _ => .pure rfl) fun _ => .pure rfl

theorem readOptionData_alike {x x' : OptVars} {optlen : UInt32} (hx : SameVars c₀ x x') :
    Alike more s₀ .handshake c₀.sock Eq (readOptionData cfg x optlen)
    (readOptionData cfg x' optlen) := by
  obtain ⟨c', newOpt', nbdBuffer'⟩ := x'
  obtain ⟨⟨e, rfl, -⟩, rfl, rfl, hkeep⟩ := hx
  refine alike_ite (fun _ => ?_) fun _ => .pure rfl
  refine alike_call (speaks_own id (by simp [Call.sock?, Call.viaCtx, hkeep.1])) fun r => ?_
  refine alike_ite (fun _ => .pure rfl) fun _ => ?_
  refine alike_note ?_
  exact alike_ite (fun _ => .halt) fun _ => .pure rfl

/-- The same option, and the same variables with it. -/
def SameOption (c₀ : NbdClient) :
    Option (OptVars × NbdNewOption) → Option (OptVars × NbdNewOption) → Prop
  | some a, some b => SameVars c₀ a.1 b.1 ∧ a.2 = b.2
  | none, none => True
  | _, _ => False

theorem readOption_alike {x x' : OptVars} (hx : SameVars c₀ x x') :
    Alike more s₀ .handshake c₀.sock (SameOption c₀) (readOption cfg x) (readOption cfg x') := by
  refine (readNewOption_alike hx).bind ?_
  rintro (_ | ⟨newOpt, raw⟩) _ rfl
  · exact .pure trivial
  refine alike_note ?_
  refine alike_ite (fun _ => .pure trivial) fun _ => ?_
  refine (readOptionData_alike hx).bind ?_
  rintro (_ | nbdBuffer) _ rfl
  · exact .pure trivial
  · exact .pure ⟨⟨hx.1, rfl, rfl, hx.2.2.2⟩, rfl⟩

theorem lwnbdUpdateSize_alike (i : ContextIdx) :
    Alike more s₀ st sock (fun _ _ => True) (lwnbdUpdateSize i) (lwnbdUpdateSize i) := by
  refine Agree.read.bind fun s s' ⟨hs, hs'⟩ => ?_
  rw [hs.contexts i, hs'.contexts i]
  dsimp only
  cases (s₀.reg.get i).p with
  | none => exact .halt
  | some p =>
    refine alike_ite (fun _ => ?_) fun _ => .halt
    refine alike_call (speaks_own id (by simp [Call.sock?])) fun size => ?_
    exact .modify fun s hs => hs.exportsize i size

theorem lwnbdGetContext_alike (uri : Bytes) :
    Alike more s₀ st sock Eq (lwnbdGetContext uri) (lwnbdGetContext uri) := by
  refine alike_note ?_
  refine Agree.read.bind fun s s' ⟨hs, hs'⟩ => ?_
  dsimp only
  rw [hs.getContextString, hs'.getContextString]
  cases s₀.reg.getContextString (yuarelParse uri).path with
  | none => exact .pure rfl
  | some i =>
    dsimp only
    rw [hs.contexts i, hs'.contexts i]
    dsimp only
    cases (s₀.reg.get i).p with
    | none => exact .halt
    | some p =>
      have htail : ∀ ret : ℤ, Alike more s₀ st sock Eq
          (if ret ≠ 0 then pure none else do lwnbdUpdateSize i; pure (some i))
          (if ret ≠ 0 then pure none else do lwnbdUpdateSize i; pure (some i)) := fun ret =>
        alike_ite (fun _ => .pure rfl) fun _ => (lwnbdUpdateSize_alike i).bind fun _ _ _ =>
          .pure rfl
      by_cases hq : p.query = true
      · simp only [hq, if_true]
        exact alike_call (speaks_own id (by simp [Call.sock?])) htail
      · simp only [hq, pure_bind]
        exact htail 0

theorem selectContext_alike {x x' : OptVars} {optlen : UInt32} (hx : SameVars c₀ x x') :
    Alike more s₀ st sock (fun e e' => e' = none ↔ e = none) (selectContext x optlen)
    (selectContext x' optlen) := by
  obtain ⟨⟨e, hc, he⟩, -, hbuf, -⟩ := hx
  unfold selectContext
  rw [hbuf, hc]
  refine alike_ite (fun _ => ?_) fun _ => .pure he
  have hget : Alike more s₀ st sock Eq (lwnbdGetContext (cstr x.nbdBuffer))
      (lwnbdGetContext (cstr x.nbdBuffer)) :=
    lwnbdGetContext_alike _
  rw [← bind_pure (lwnbdGetContext (cstr x.nbdBuffer))]
  refine hget.bind ?_
  rintro e _ rfl
  exact .pure Iff.rfl

/-- What is sent in answer to an option goes over `ctx->sock`. -/
theorem speaks_answer {obj : Obj} {buf : Bytes} {flags : ℤ} (h : obj ≠ .newHs) :
    Speaks .handshake sock s₀.ctx (.send s₀.ctx.sock obj buf flags) :=
  speaks_ctx id (by simp [Call.sock?, Call.viaCtx, h])

theorem optExportName_alike {x x' : OptVars} {cflags optlen : UInt32} (hx : SameVars c₀ x x') :
    Alike more s₀ .handshake c₀.sock (Ctl.Rel (SameVars c₀) (SameClient c₀))
    (optExportName cflags x optlen)
      (optExportName cflags x' optlen) := by
  refine (selectContext_alike hx).bind fun e e' he => ?_
  have hend (r : ℤ) : SameClient c₀ (r, { x.c with ctx := e }) (r, { x'.c with ctx := e' }) := by
    obtain ⟨⟨f, hc, -⟩, -, -, hkeep⟩ := hx
    exact ⟨rfl, ⟨e', by rw [hc], he⟩, hkeep⟩
  by_cases hnone : e = none
  · simp only [if_pos hnone, if_pos (he.mpr hnone)]
    exact .pure (hend _)
  simp only [if_neg hnone, if_neg (mt he.mp hnone)]
  refine alike_ctxNow fun t t' => ?_
  refine alike_call (speaks_answer (by decide)) fun size => ?_
  refine alike_ite (fun _ => .pure (hend _)) fun _ => ?_
  exact alike_state (.pure (hend _))

theorem sendOptionReply_alike {option reply replylen : UInt32} {flags : ℤ} :
    Alike more s₀ .handshake sock Eq (sendOptionReply option reply replylen flags)
      (sendOptionReply option reply replylen flags) :=
  alike_ctxNow fun _ _ => alike_call (speaks_answer (by decide)) fun _ => .pure rfl

theorem sendPiece_alike {obj : Obj} {buf : Bytes} (h : obj ≠ .newHs) :
    Alike more s₀ .handshake sock Eq (sendPiece obj buf) (sendPiece obj buf) :=
  alike_ctxNow fun _ _ => alike_call (speaks_answer h) fun _ => .pure rfl

theorem alike_and {p q p' q' : Server Bool} (hp : Alike more s₀ st sock Eq p p') (hq : Alike more
      s₀ st sock Eq q q') :
    Alike more s₀ st sock Eq (do if ← p then q else pure false)
    (do if ← p' then q' else pure false) := by
  refine hp.bind ?_
  rintro (_ | _) _ rfl
  · exact .pure rfl
  · exact hq

theorem sendListEntry_alike {option : UInt32} {context : Context} : Alike more s₀ .handshake sock Eq
    (sendListEntry option context) (sendListEntry option context) :=
  alike_and sendOptionReply_alike (alike_and (sendPiece_alike (by decide)) (alike_and
    (sendPiece_alike (by decide)) (sendPiece_alike (by decide))))

theorem optAbort_alike {x x' : OptVars} {option : UInt32} (hx : SameVars c₀ x x') :
    Alike more s₀ .handshake c₀.sock (Ctl.Rel (SameVars c₀) (SameClient c₀)) (optAbort x option)
      (optAbort x' option) := by
  refine sendOptionReply_alike.bind ?_
  rintro (_ | _) _ rfl
  · exact .pure (hx.client _)
  · exact alike_state (.pure (hx.client _))

theorem listed_lt {i : ℕ} {s : Shared} (h : i < s.reg.contextsCount ∧ i < MAX_CONTEXTS) :
    i < MAX_CONTEXTS := h.2

/-- What a round of the loop of the list reply does in the memory it reads. -/
def listAt (option : UInt32) (i : ℕ) (s : Shared) : Server (Ctl ℕ Bool) :=
  if h : i < s.reg.contextsCount ∧ i < MAX_CONTEXTS then do
    if ← sendListEntry option (s.reg.get ⟨i, listed_lt h⟩) then pure (.next (i + 1))
    else pure (.done false)
  else pure (.done true)

/-- The body of the loop. -/
def listRound (option : UInt32) (i : ℕ) : Server (Ctl ℕ Bool) := Prog.read >>= listAt option i

/-- The end of the list reply. -/
def listEnd (x : OptVars) (option : UInt32) (sent : Bool) : Server OptCtl := do
  if sent then
    if ← sendOptionReply option NBD_REP_ACK 0 0 then pure (.next x) else pure (.done (-1, x.c))
  else pure (.done (-1, x.c))

/-- What is left of the list reply, from the context `i` on. -/
def listRest (n : ℕ) (x : OptVars) (option : UInt32) (i : ℕ) : Server OptCtl :=
  Prog.loop n (listRound option) i >>= listEnd x option

theorem optList_eq (x : OptVars) (option : UInt32) :
    optList x option = listRest (MAX_CONTEXTS + 1) x option 0 := rfl

theorem listRest_succ (n : ℕ) (x : OptVars) (option : UInt32) (i : ℕ) :
    listRest (n + 1) x option i = listRound option i >>= fun
      | .next i => listRest n x option i
      | .done sent => listEnd x option sent := by
  rw [listRest, Prog.loop, bind_assoc]
  congr 1
  funext x
  cases x with
  | next i => rfl
  | done sent => rfl

/-- Its next header tells whether there are more contexts than `i`. -/
theorem listRest_tells {n : ℕ} {x : OptVars} {i : ℕ} :
    (listRest (n + 1) x NBD_OPT_LIST i).Tells (fun e => e.lists) (Sees more s₀) := by
  intro s _
  have hlists (reply len : UInt32) (flags : ℤ) :
      (Call.send s.ctx.sock .fixedNewOptionReply (fixedNewOptionReply NBD_OPT_LIST reply len)
      flags).lists = true := by
    simp [Call.lists, fixedNewOptionReply, List.slice]
  rw [listRest_succ]
  have hround : (listRound NBD_OPT_LIST i).settle s = (listAt NBD_OPT_LIST i s).settle s := rfl
  by_cases h : i < s.reg.contextsCount ∧ i < MAX_CONTEXTS
  · rw [listAt, dif_pos h] at hround
    let context := s.reg.get ⟨i, h.2⟩
    refine ⟨_, Prog.settle_bind ?_,
      hlists NBD_REP_SERVER (UInt32.ofNat (context.name.length + 4 + context.description.length))
      MSG_MORE⟩
    rw [hround]
    exact Prog.settle_bind (Prog.settle_bind rfl)
  · rw [listAt, dif_neg h] at hround
    rw [Prog.settle_bind_ret hround]
    exact ⟨_, Prog.settle_bind rfl, hlists NBD_REP_ACK 0 0⟩

theorem listEnd_alike {x x' : OptVars} (hx : SameVars c₀ x x') {option : UInt32} (sent : Bool) :
    Alike more s₀ .handshake c₀.sock (Ctl.Rel (SameVars c₀) (SameClient c₀)) (listEnd x option sent)
      (listEnd x' option sent) := by
  refine alike_ite (fun _ => sendOptionReply_alike.bind ?_) fun _ => .pure (hx.client _)
  rintro (_ | _) _ rfl
  · exact .pure (hx.client _)
  · exact .pure hx

theorem listAt_alike {option : UInt32} {i : ℕ} {s : Shared} :
    Alike more s₀ .handshake sock Eq (listAt option i s) (listAt option i s) := by
  unfold listAt
  split_ifs
  · refine sendListEntry_alike.bind ?_
    rintro sent _ rfl
    exact alike_ite (fun _ => .pure rfl) fun _ => .pure rfl
  · exact .pure rfl

/-- A round goes on alike where the memories are equal. -/
theorem listRound_alike {same : Prop} (hsame : same) {option : UInt32} {i : ℕ} :
    AgreeIf (Speaks .handshake sock s₀.ctx) Call.isNote (fun e => e.lists) (Sees more s₀) Eq same
      (listRound option i) (listRound option i) := by
  refine .get fun s s' _ _ heq => ?_
  rw [heq hsame]
  exact listAt_alike same

theorem listRest_alike {n : ℕ} {x x' : OptVars} (hx : SameVars c₀ x x') {i : ℕ} :
    Alike more s₀ .handshake c₀.sock (Ctl.Rel (SameVars c₀) (SameClient c₀))
    (listRest n x NBD_OPT_LIST i)
      (listRest n x' NBD_OPT_LIST i) := by
  induction n generalizing i with
  | zero => exact .halt
  | succ n ih =>
    intro same
    by_cases hsame : same
    · rw [listRest_succ, listRest_succ]
      refine (listRound_alike hsame).bind ?_
      rintro (i | sent) _ rfl
      · exact ih
      · exact listEnd_alike hx sent
    · exact .tells hsame listRest_tells

theorem optList_alike {x x' : OptVars} (hx : SameVars c₀ x x') :
    Alike more s₀ .handshake c₀.sock (Ctl.Rel (SameVars c₀) (SameClient c₀))
    (optList x NBD_OPT_LIST)
      (optList x' NBD_OPT_LIST) := listRest_alike hx

theorem optDefault_alike {x x' : OptVars} {option : UInt32} (hx : SameVars c₀ x x') :
    Alike more s₀ .handshake c₀.sock (Ctl.Rel (SameVars c₀) (SameClient c₀)) (optDefault x option)
      (optDefault x' option) := by
  refine sendOptionReply_alike.bind ?_
  rintro (_ | _) _ rfl
  · exact .pure (hx.client _)
  · exact .pure hx

theorem serveOption_alike {x x' : OptVars} {cflags : UInt32} (hx : SameVars c₀ x x') :
    Alike more s₀ .handshake c₀.sock (Ctl.Rel (SameVars c₀) (SameClient c₀))
    (serveOption cfg cflags x)
      (serveOption cfg cflags x') := by
  refine (readOption_alike hx).bind ?_
  rintro (_ | ⟨y, newOpt⟩) (_ | ⟨y', newOpt'⟩) hy
  · exact .pure (hx.client _)
  · exact hy.elim
  · exact hy.elim
  obtain ⟨hy, rfl⟩ := hy
  refine alike_ite (fun _ => optExportName_alike hy) fun _ => ?_
  refine alike_ite (fun _ => optAbort_alike hy) fun _ => ?_
  refine alike_ite (fun hlist => ?_) fun _ => optDefault_alike hy
  rw [hlist]
  exact optList_alike hy

/-- The handshake goes on alike, whatever it sees of the memory besides. -/
theorem handshake_alike {c : NbdClient} (hc : c₀.Like c) :
    Alike more s₀ .handshake c₀.sock (SameClient c₀) (protocolHandshake cfg fuel c₀)
    (protocolHandshake cfg fuel c) := by
  have hkeep : c₀.Keeps c₀ := ⟨rfl, rfl⟩
  refine (greet_alike hc).bind ?_
  rintro (_ | cflags) _ rfl
  · exact .pure ⟨rfl, hc, hkeep⟩
  refine alike_call (speaks_own id (by simp [Call.sock?])) fun newOpt => ?_
  refine alike_call (speaks_own id (by simp [Call.sock?])) fun nbdBuffer => ?_
  refine Agree.loop (SameVars c₀) ?_ _ ⟨hc, rfl, rfl, hkeep⟩
  intro x x' hx
  exact serveOption_alike hx

end Handshake

/-! ### The transmission phase -/

section Transmission

variable {cfg : Config} {fuel : ℕ} {blocksize : UInt32}

/-- In the transmission phase everything goes over `ctx->sock`. -/
theorem speaks_transmission {e : Call} (hn : ¬ e.isNote)
    (hk : ∀ k, e.sock? = some k → k = s₀.ctx.sock) : Speaks .transmission sock s₀.ctx e := by
  refine speaks_ctx hn fun k h => ⟨hk k h, ?_⟩
  cases e <;> simp_all [Call.sock?, Call.viaCtx]

theorem sendReply_alike {error : UInt32} {handle : UInt64} {flags : ℤ}
    {p : Server α} {p' : Server β} (h : Alike more s₀ .transmission sock ρ p p') :
    Alike more s₀ .transmission sock ρ
      (do let _ ← syncSend (← ctxNow).sock .reply (simpleReply error handle) flags; p)
      (do let _ ← syncSend (← ctxNow).sock .reply (simpleReply error handle) flags; p') :=
  alike_ctxNow fun _ _ => alike_call (speaks_transmission id (by simp [Call.sock?])) fun _ => h

theorem readRequest_alike {x : Vars} :
    Alike more s₀ .transmission sock Eq (readRequest x) (readRequest x) := by
  refine alike_ctxNow fun t t' => ?_
  refine alike_call (speaks_transmission id (by simp [Call.sock?])) fun r => ?_
  refine alike_ite (fun _ => .pure rfl) fun _ => ?_
  exact alike_ite (fun _ => .pure rfl) fun _ => .pure rfl

theorem lwnbdPread_alike {me : Context} {count : UInt32} {offset : UInt64} :
    Alike more s₀ .transmission sock Eq (lwnbdPread me count offset)
    (lwnbdPread me count offset) := by
  unfold lwnbdPread
  cases me.p with
  | none => exact .halt
  | some p => exact Agree.perform (e := .pread p me.handle count offset)
                (speaks_transmission id (by simp [Call.sock?]))

theorem lwnbdPwrite_alike {me : Context} {buf : Bytes} {count : UInt32} {offset : UInt64} :
    Alike more s₀ .transmission sock Eq (lwnbdPwrite me buf count offset)
    (lwnbdPwrite me buf count offset) := by
  unfold lwnbdPwrite
  cases me.p with
  | none => exact .halt
  | some p =>
    refine alike_ite (fun _ => ?_) fun _ => .halt
    exact Agree.perform (e := .pwrite p me.handle buf count offset)
      (speaks_transmission id (by simp [Call.sock?]))

theorem lwnbdFlush_alike {me : Context} :
    Alike more s₀ .transmission sock Eq (lwnbdFlush me) (lwnbdFlush me) := by
  unfold lwnbdFlush
  cases me.p with
  | none => exact .halt
  | some p =>
    refine alike_ite (fun _ => ?_) fun _ => .halt
    exact Agree.perform (e := .flush p me.handle) (speaks_transmission id (by simp [Call.sock?]))

theorem sendChunk_alike {x : Vars} :
    Alike more s₀ .transmission sock (Ctl.Rel Eq (Ctl.Rel Eq Eq)) (sendChunk cfg x)
    (sendChunk cfg x) := by
  refine alike_ctxNow fun t t' => ?_
  refine alike_call (speaks_transmission id (by simp [Call.sock?])) fun r => ?_
  exact alike_ite (fun _ => .pure rfl) fun _ => .pure rfl

theorem readChunk_alike {x : Vars} :
    Alike more s₀ .transmission sock (Ctl.Rel Eq (Ctl.Rel Eq Eq)) (readChunk cfg blocksize x)
      (readChunk cfg blocksize x) := by
  refine alike_ite (fun _ => .pure rfl) fun _ => ?_
  refine alike_ctxNow fun t t' => ?_
  refine lwnbdPread_alike.bind ?_
  rintro r _ rfl
  refine alike_ite (fun _ => sendChunk_alike) fun _ => ?_
  unfold Vars.tryAgain
  split_ifs
  · exact .pure rfl
  · exact .pure rfl

theorem cmdRead_alike {x : Vars} {q : NbdRequest} :
    Alike more s₀ .transmission sock (Ctl.Rel Eq Eq) (cmdRead cfg fuel blocksize x q)
    (cmdRead cfg fuel blocksize x q) := by
  have hloop (error : UInt32) (x : Vars) : Alike more s₀ .transmission sock (Ctl.Rel Eq Eq)
      (do let _ ← syncSend (← ctxNow).sock .reply (simpleReply error q.handle) x.sendflag
          Prog.loop fuel (readChunk cfg blocksize) x)
      (do let _ ← syncSend (← ctxNow).sock .reply (simpleReply error q.handle) x.sendflag
          Prog.loop fuel (readChunk cfg blocksize) x) := by
    refine sendReply_alike ?_
    refine Agree.loop Eq ?_ _ rfl
    rintro x _ rfl
    exact readChunk_alike
  refine alike_ctxNow fun t t' => ?_
  refine alike_ite (fun _ => ?_) fun _ => alike_ite (fun _ => .halt) fun _ => ?_
  · exact hloop _ _
  · exact hloop _ _

theorem writeChunk_alike {v : Vars × UInt32} :
    Alike more s₀ .transmission sock (Ctl.Rel Eq Eq) (writeChunk cfg blocksize v)
    (writeChunk cfg blocksize v) := by
  refine alike_ite (fun _ => .pure rfl) fun _ => ?_
  refine alike_ctxNow fun t t' => ?_
  refine alike_call (speaks_transmission id (by simp [Call.sock?])) fun r => ?_
  refine alike_ite (fun _ => ?_) fun _ => .pure rfl
  refine alike_ctxNow fun t t' => ?_
  refine lwnbdPwrite_alike.bind ?_
  rintro r _ rfl
  exact alike_ite (fun _ => .pure rfl) fun _ => .pure rfl

theorem cmdWrite_alike {x : Vars} {q : NbdRequest} :
    Alike more s₀ .transmission sock (Ctl.Rel Eq Eq) (cmdWrite cfg fuel blocksize x q)
      (cmdWrite cfg fuel blocksize x q) := by
  have hloop (v : Vars × UInt32) : Alike more s₀ .transmission sock (Ctl.Rel Eq Eq)
      (do let v ← Prog.loop fuel (writeChunk cfg blocksize) v
          let _ ← syncSend (← ctxNow).sock .reply (simpleReply v.2 q.handle) 0
          pure (.next v.1) : Server (Ctl Vars ℤ))
      (do let v ← Prog.loop fuel (writeChunk cfg blocksize) v
          let _ ← syncSend (← ctxNow).sock .reply (simpleReply v.2 q.handle) 0
          pure (.next v.1)) := by
    have hwrite : Alike more s₀ .transmission sock Eq (Prog.loop fuel (writeChunk cfg blocksize) v)
        (Prog.loop fuel (writeChunk cfg blocksize) v) := by
      refine Agree.loop Eq ?_ _ rfl
      rintro v _ rfl
      exact writeChunk_alike
    refine hwrite.bind ?_
    rintro v _ rfl
    exact sendReply_alike (.pure rfl)
  refine alike_ctxNow fun t t' => ?_
  refine alike_ite (fun _ => hloop _) fun _ => ?_
  refine alike_ite (fun _ => hloop _) fun _ => ?_
  exact alike_ite (fun _ => .halt) fun _ => hloop _

theorem serveRequest_alike {x : Vars} :
    Alike more s₀ .transmission sock (Ctl.Rel Eq Eq) (serveRequest cfg fuel blocksize x)
    (serveRequest cfg fuel blocksize x) := by
  refine readRequest_alike.bind ?_
  rintro (_ | ⟨y, q⟩) _ rfl
  · exact .pure rfl
  refine alike_note ?_
  refine alike_ite (fun _ => cmdRead_alike) fun _ => ?_
  refine alike_ite (fun _ => cmdWrite_alike) fun _ => ?_
  refine alike_ite (fun _ => alike_state (.pure rfl)) fun _ => ?_
  refine alike_ite (fun _ => ?_) fun _ => sendReply_alike (.pure rfl)
  refine alike_ctxNow fun t t' => ?_
  refine lwnbdFlush_alike.bind ?_
  rintro r _ rfl
  exact sendReply_alike (.pure rfl)

theorem transmissionVars_alike :
    Alike more s₀ .transmission sock Eq (transmissionVars cfg) (transmissionVars cfg) := by
  refine alike_call (speaks_transmission id (by simp [Call.sock?])) fun request => ?_
  refine alike_call (speaks_transmission id (by simp [Call.sock?])) fun nbdBuffer => ?_
  exact alike_ctxNow fun t t' => .pure rfl

/-- The transmission phase goes on alike, whatever it sees of the memory besides. -/
theorem transmissionPhase_alike :
    Alike more s₀ .transmission sock Eq (transmissionPhase cfg fuel)
    (transmissionPhase cfg fuel) := by
  refine transmissionVars_alike.bind ?_
  rintro ⟨blocksize, x⟩ _ rfl
  refine Agree.loop Eq ?_ _ rfl
  rintro x _ rfl
  exact serveRequest_alike

end Transmission

/-! ### Sessions -/

section Session

variable (cfg : Config) (fuel : ℕ) {c₀ c : NbdClient}

/-- The same client, which stays in its phase. -/
def SameRound (c₀ c c' : NbdClient) : Prop := c.Like c' ∧ c₀.Keeps c

/-- The body of the session loop, which leaves the client in its phase. -/
theorem sessionRound_alike {c' : NbdClient} (hc : SameRound c₀ c c') :
    Alike more s₀ c₀.state c₀.sock (Ctl.Rel (SameRound c₀) Eq) (sessionRound cfg fuel c)
    (sessionRound cfg fuel c') := by
  have hend (r : ℤ) (d d' : NbdClient) (hd : SameRound c₀ d d') : Alike more s₀ c.state c.sock
      (Ctl.Rel (SameRound c₀) Eq) (if r = 0 then pure (.next d) else pure (.done r))
      (if r = 0 then pure (.next d') else pure (.done r)) :=
    alike_ite (fun _ => .pure hd) fun _ => .pure rfl
  have hphase : c'.state = c.state := by
    obtain ⟨⟨e, rfl, -⟩, -⟩ := hc
    rfl
  obtain ⟨hlike, hsock, hstate⟩ := hc
  rw [← hsock, ← hstate]
  unfold sessionRound
  rw [hphase]
  cases hphase : c.state with
  | handshake =>
    rw [hphase] at hend
    refine alike_note ((handshake_alike hlike).bind ?_)
    rintro ⟨r, d⟩ ⟨r', d'⟩ ⟨rfl, hlike, hd⟩
    exact alike_ctxNow fun t t' =>
      alike_note (hend r d d' ⟨hlike, hd.1.trans hsock, hd.2.trans hstate⟩)
  | transmission =>
    rw [hphase] at hend
    refine alike_note (transmissionPhase_alike.bind ?_)
    rintro r _ rfl
    exact alike_ctxNow fun t t' => alike_note (hend r c c' ⟨hlike, hsock, hstate⟩)
  | abort => exact .pure rfl

/-- A session goes on alike, whatever it sees of the memory besides. -/
theorem session_alike {c' : NbdClient} (hc : c.Like c') : Alike more s₀ c.state c.sock Eq
    (Prog.loop fuel (sessionRound cfg fuel) c) (Prog.loop fuel (sessionRound cfg fuel) c') := by
  refine Agree.loop (SameRound c) ?_ _ ⟨hc, rfl, rfl⟩
  intro d d' hd
  exact sessionRound_alike cfg fuel hd

end Session

end LwNBD
