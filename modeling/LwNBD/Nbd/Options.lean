import LwNBD.Nbd.Wire

/-!
# The option loop

The rules for the pieces of `protocol_handshake`, against any environment, and what the
properties of the handshake rest on: how it ends, and what it does until then.

## What is proved

* `readOption_reads`, `wp_serveOption` — an option is read, and handled by its code.
* `lookup_lookedUp` — what looking up an export does.
* `handshake_negotiated` — a handshake ends in one of six ways (`Negotiated`), and does
  nothing before but greet the client, read its options and answer them.
-/

namespace LwNBD

open Resumption

variable {σ : Type} (env : Env Call Resp σ) {cfg : Config} {fuel : ℕ} {cflags : UInt32}

/-- Control at the head of the option loop. -/
abbrev OptHead (σ : Type) := Head OptVars Shared σ

/-! ### Reading an option -/

/-- A call that is made to read an option. -/
def ReadsOption (sock : ℤ) : Call → Prop
  | .recv k .newOpt _ | .recv k .nbdBuffer _ => k = sock
  | .note (.index _ _) => True
  | _ => False

/-- The reading of an option at a head: its result, and what it leaves. -/
def readOptionAt (cfg : Config) (c : OptHead σ) :
    Result Shared Call Resp σ (Option (OptVars × NbdNewOption)) :=
  (readOption cfg c.x).run env c.mem c.env

/-- The option that is read at a head, and the variables then; none when the function returns
instead, or goes wrong. -/
def optionAt (cfg : Config) (c : OptHead σ) : Option (OptVars × NbdNewOption) :=
  match (readOptionAt env cfg c).out with
  | .ret o => o
  | .halt _ => none

variable {env} {c : OptHead σ} {s : Shared} {w : σ} {x : OptVars}

theorem wp_readNewOption {Q : Post Shared Call Resp σ (Option (NbdNewOption × Bytes))}
    (hbad : ∀ r w₁, env w (.recv x.c.sock .newOpt 16) = (r, w₁) →
      asSize r.ret < 16 ∨ (NbdNewOption.ofBytes (store x.newOpt r.data)).version ≠ NBD_NEW_VERSION →
      Q (.ret none) s w₁ [⟨.recv .., r⟩])
    (hok : ∀ r w₁, env w (.recv x.c.sock .newOpt 16) = (r, w₁) → 16 ≤ asSize r.ret →
      (NbdNewOption.ofBytes (store x.newOpt r.data)).version = NBD_NEW_VERSION →
      Q (.ret (some (.ofBytes (store x.newOpt r.data),
      NbdNewOption.hostOrder (store x.newOpt r.data)))) s w₁
        [⟨.recv .., r⟩]) :
    wp env (readNewOption x) Q s w := by
  rcases he : env w (.recv x.c.sock .newOpt 16) with ⟨r, w₁⟩
  simp only [readNewOption, wp_bind, wp_syncRecv, Post.seq_ret, he]
  by_cases hsize : asSize r.ret < 16
  · rw [if_pos hsize]
    exact hbad r w₁ he (.inl hsize)
  rw [if_neg hsize]
  by_cases hversion : (NbdNewOption.ofBytes (store x.newOpt r.data)).version = NBD_NEW_VERSION
  · rw [if_neg (not_not.mpr hversion)]
    exact hok r w₁ he (Nat.le_of_not_lt hsize) hversion
  · rw [if_pos hversion]
    exact hbad r w₁ he (.inr hversion)

/-- The data of an option are received, if there are any. -/
theorem wp_readOptionData {optlen : UInt32} {Q : Post Shared Call Resp σ (Option Bytes)}
    (hnone : optlen = 0 → Q (.ret (some x.nbdBuffer)) s w [])
    (hshort : ∀ r w₁, env w (.recv x.c.sock .nbdBuffer optlen.toNat) = (r, w₁) → optlen ≠ 0 →
      asUInt32 r.ret < optlen → Q (.ret none) s w₁ [⟨.recv .., r⟩])
    (hover : ∀ r w₁, env w (.recv x.c.sock .nbdBuffer optlen.toNat) = (r, w₁) → optlen ≠ 0 →
      optlen ≤ asUInt32 r.ret → cfg.bufferLen ≤ optlen.toNat →
      Q (.halt .undefined) s (env w₁ (.note (.index .nbdBuffer optlen.toNat))).2
        [⟨.recv .., r⟩, ⟨.note (.index .nbdBuffer optlen.toNat), ()⟩])
    (hfull : ∀ r w₁, env w (.recv x.c.sock .nbdBuffer optlen.toNat) = (r, w₁) → optlen ≠ 0 →
      optlen ≤ asUInt32 r.ret → optlen.toNat < cfg.bufferLen →
      Q (.ret (some ((store x.nbdBuffer r.data).set optlen.toNat 0))) s
        (env w₁ (.note (.index .nbdBuffer optlen.toNat))).2
        [⟨.recv .., r⟩, ⟨.note (.index .nbdBuffer optlen.toNat), ()⟩]) :
    wp env (readOptionData cfg x optlen) Q s w := by
  unfold readOptionData
  by_cases h0 : optlen = 0
  · rw [if_neg (by rw [h0]; decide)]
    exact hnone h0
  rcases he : env w (.recv x.c.sock .nbdBuffer optlen.toNat) with ⟨r, w₁⟩
  rw [if_pos (UInt32.pos_iff_ne_zero.mpr h0), wp_bind, wp_syncRecv, he, Post.seq_ret]
  by_cases hlt : asUInt32 r.ret < optlen
  · rw [if_pos hlt]
    exact hshort r w₁ he h0 hlt
  rw [if_neg hlt, wp_bind, wp_note, Post.seq_ret]
  by_cases hlen : cfg.bufferLen ≤ optlen.toNat
  · rw [if_pos hlen]
    exact hover r w₁ he h0 (UInt32.not_lt.mp hlt) hlen
  · rw [if_neg hlen]
    exact hfull r w₁ he h0 (UInt32.not_lt.mp hlt) (Nat.lt_of_not_le hlen)

/-- Reading an option does nothing else. -/
theorem readOption_reads : wp env (readOption cfg x) (fun o s' _ h => s' = s ∧
    (∀ e ∈ calls h, ReadsOption x.c.sock e) ∧ o ≠ .halt .fuel ∧ ∀ y t, o = .ret (some (y, t)) →
      y.c = x.c) s w := by
  rw [readOption, wp_bind]
  refine wp_readNewOption (fun r w₁ _ _ => ⟨rfl, by simp [ReadsOption], by simp, by simp⟩)
    (fun r w₁ _ _ _ => ?_)
  simp only [Post.seq_ret, wp_bind, wp_note, Post.after_after]
  split
  · exact ⟨rfl, by simp [ReadsOption], by simp, by simp⟩
  rw [wp_bind]
  refine wp_readOptionData (fun _ => ?_) (fun r w₂ _ _ _ => ?_) (fun r w₂ _ _ _ _ => ?_)
    (fun r w₂ _ _ _ _ => ?_)
  · exact ⟨rfl, by simp [ReadsOption], by simp, by simp⟩
  · exact ⟨rfl, by simp [ReadsOption], by simp, by simp⟩
  · exact ⟨rfl, by simp [ReadsOption], by simp, by simp⟩
  · exact ⟨rfl, by simp [ReadsOption], by simp, by simp⟩

/-- The rule for a round: an option is read, and handled by its code; or nothing is done but
to read one, and the function returns or goes wrong. -/
theorem wp_serveOption {Q : Post Shared Call Resp σ OptCtl}
    (hnone : optionAt env cfg c = none → ∀ o w h, o = .ret (.done (-1, c.x.c)) ∨
      o = .halt .undefined → (∀ e ∈ calls h, ReadsOption c.x.c.sock e) → Q o c.mem w h)
    (hsome : ∀ y t, optionAt env cfg c = some (y, t) → y.c = c.x.c →
      (∀ e ∈ calls (readOptionAt env cfg c).trace, ReadsOption c.x.c.sock e) →
      wp env (handleOption cflags y t.option t.optlen) (Q.after (readOptionAt env cfg c).trace)
      c.mem
        (readOptionAt env cfg c).env) :
    wp env (serveOption cfg cflags c.x) Q c.mem c.env := by
  obtain ⟨hmem, hreads, hfuel, hclient⟩ : wp env (readOption cfg c.x) _ c.mem c.env :=
    readOption_reads
  rw [serveOption, wp_bind]
  unfold optionAt readOptionAt at *
  unfold wp
  rcases ho : ((readOption cfg c.x).run env c.mem c.env).out with (_ | ⟨y, t⟩) | (_ | _)
  · rw [Post.seq_ret, hmem]
    exact hnone (by rw [ho]) _ _ _ (.inl rfl) (by simpa using hreads)
  · rw [Post.seq_ret, hmem]
    exact hsome y t (by rw [ho]) (hclient y t ho) hreads
  · exact absurd ho hfuel
  · rw [Post.seq_halt, hmem]
    exact hnone (by rw [ho]) _ _ _ (.inr rfl) hreads

/-! ### Looking up an export -/

section Lookup

variable {uri : Bytes} {i : ContextIdx} {p : Plugin}
  {Q : Post Shared Call Resp σ (Option ContextIdx)}

/-- The size of a context that was found is updated. -/
theorem wp_updateSize (hp : (s.reg.get i).p = some p)
    (hsize : ∀ r w₁, p.getSize = true → env w (.getSize p (s.reg.get i).handle) = (r, w₁) →
      Q (.ret (some i)) { s with reg := s.reg.update i fun e => { e with exportsize := r } }
  w₁ [⟨.getSize .., r⟩])
    (hnull : p.getSize = false → Q (.halt .undefined) s w []) :
    wp env (do lwnbdUpdateSize i; pure (some i)) Q s w := by
  simp only [lwnbdUpdateSize, wp_bind, wp_read, Post.seq_ret, hp]
  cases hg : p.getSize with
  | false => simpa using hnull hg
  | true => simpa [wp_bind] using hsize _ _ hg rfl

/-- A context is found by the path; its plugin's query must succeed; and its size is updated. -/
theorem wp_lwnbdGetContext
    (hnone : ∀ w₁, Q (.ret none) s w₁ [⟨.note (.enter (.lwnbdGetContext uri)), ()⟩])
    (hnull : ∀ w₁, Q (.halt .undefined) s w₁ [⟨.note (.enter (.lwnbdGetContext uri)), ()⟩])
    (hfail : ∀ p handle params n r w₁, p.query = true → r ≠ 0 → Q (.ret none) s w₁
      [⟨.note (.enter (.lwnbdGetContext uri)), ()⟩, ⟨.query p handle params n, r⟩])
    (hfound : ∀ i p w₁ h, (s.reg.get i).p = some p →
      (∀ e ∈ calls h, p.query = true ∧ ∃ handle params n, e = .query p handle params n) →
      wp env (do lwnbdUpdateSize i; pure (some i))
      (Q.after (⟨.note (.enter (.lwnbdGetContext uri)), ()⟩ :: h)) s w₁) :
    wp env (lwnbdGetContext uri) Q s w := by
  simp only [lwnbdGetContext, wp_bind, wp_note, Post.seq_ret, wp_read, Post.after_after]
  rcases s.reg.getContextString (yuarelParse uri).path with _ | i
  · exact hnone _
  cases hp : (s.reg.get i).p with
  | none => simpa [hp] using hnull _
  | some p =>
    cases hq : p.query with
    | false => simpa [hp, hq] using hfound i p _ [] hp (by simp)
    | true =>
      simp only [hp, hq, if_true, wp_bind, wp_perform, Post.seq_ret, Post.after_after]
      split
      case isTrue hr => simpa using hfail _ _ _ _ _ _ hq hr
      case isFalse => simpa using hfound i p _ [⟨.query .., _⟩] hp (by simp [hq])

end Lookup

/-- The export that is asked for: by its name, or the one the client has. -/
def lookup (c : NbdClient) : Option Bytes → Server (Option ContextIdx)
  | none => pure c.ctx
  | some uri => lwnbdGetContext uri

/-- The name that an `NBD_OPT_EXPORT_NAME` asks for. -/
def askedName (x : OptVars) (optlen : UInt32) : Option Bytes :=
  if 0 < optlen then some (cstr x.nbdBuffer) else none

theorem selectContext_eq (optlen : UInt32) :
    selectContext x optlen = lookup x.c (askedName x optlen) := by
  unfold selectContext askedName
  split_ifs
  · rfl
  · rfl

/-- A call that is made to look up an export. -/
def LooksUp (uri : Option Bytes) : Call → Prop
  | .note (.enter (.lwnbdGetContext u)) => uri = some u
  | .query .. | .getSize .. => uri ≠ none
  | _ => False

/-- What looking up an export does. -/
structure LookedUp (s : Shared) (uri : Option Bytes) (o : Outcome (Option ContextIdx)) (s' : Shared)
    (h : List Ev) : Prop where
  /-- The record of the server is as it was. -/
  ctx : s'.ctx = s.ctx
  /-- Nothing else is done. -/
  calls : ∀ e ∈ calls h, LooksUp uri e
  /-- A name is looked up. -/
  enters : ∀ u, uri = some u → Call.note (.enter (.lwnbdGetContext u)) ∈ Resumption.calls h
  /-- It is not cut short. -/
  ends : o ≠ .halt .fuel
  /-- A context that is found by its name is of a plugin, whose `get_size` has just returned its
  size. -/
  found : ∀ i u, o = .ret (some i) → uri = some u → ∃ p size, (s.reg.get i).p = some p ∧
    s'.reg = s.reg.update i fun e => { e with exportsize := size }

theorem lookup_lookedUp (client : NbdClient) (uri : Option Bytes) :
    wp env (lookup client uri) (fun o s' _ h => LookedUp s uri o s' h) s w := by
  cases uri with
  | none =>
    rw [lookup, wp_pure]
    exact ⟨rfl, by simp, by simp, by simp, by simp⟩
  | some uri =>
    refine wp_lwnbdGetContext (fun w₁ => ?_) (fun w₁ => ?_) (fun p handle params n r w₁ _ _ => ?_)
      (fun i p w₁ h hp hh => ?_)
    · exact ⟨rfl, by simp [LooksUp], by simp, by simp, by simp⟩
    · exact ⟨rfl, by simp [LooksUp], by simp, by simp, by simp⟩
    · exact ⟨rfl, by simp [LooksUp], by simp, by simp, by simp⟩
    · have hlooks : ∀ e ∈ calls h, LooksUp (some uri) e := by
        intro e he
        obtain ⟨-, handle, params, n, rfl⟩ := hh e he
        exact Option.some_ne_none uri
      refine wp_updateSize hp (fun r w₂ _ _ => ?_) (fun _ => ?_)
      · refine ⟨rfl, ?_, by simp, by simp, ?_⟩
        · simpa [LooksUp, or_imp, forall_and] using hlooks
        · rintro j u ⟨⟩ -
          exact ⟨p, r, hp, rfl⟩
      · exact ⟨rfl, by simpa [LooksUp] using hlooks, by simp, by simp, by simp⟩

/-! ### Answering an option -/

/-- A call that answers an option. -/
def Answers (sock : ℤ) : Call → Prop
  | .send k .fixedNewOptionReply _ _ | .send k .len _ _ | .send k .name _ _ | .send k
      .description _ _ => k = sock
  | _ => False

/-- An answer, or a part of one: nothing but answering is done. -/
def Answered (s : Shared) : Post Shared Call Resp σ Bool := fun o s' _ h =>
  s' = s ∧ (∀ e ∈ calls h, Answers s.ctx.sock e) ∧ ∃ b, o = .ret b

/-- Parts of an answer, the second if all of the first went. -/
theorem answered_and {p q : Server Bool} (hp : ∀ w, wp env p (Answered s) s w)
    (hq : ∀ w, wp env q (Answered s) s w) (w : σ) :
    wp env (do if ← p then q else pure false) (Answered s) s w := by
  rw [wp_bind]
  refine wp_mono env ?_ (hp w)
  rintro o s' w' h ⟨rfl, hh, b, rfl⟩
  cases b with
  | false => exact ⟨rfl, by simpa using hh, false, rfl⟩
  | true =>
    rw [Post.seq_ret, if_pos rfl]
    refine wp_mono env ?_ (hq w')
    rintro o s'' w'' h' ⟨rfl, hh', b, rfl⟩
    exact ⟨rfl, calls_forall_append hh hh', b, rfl⟩

theorem wp_sendOptionReply {option reply replylen : UInt32} {flags : ℤ}
    {Q : Post Shared Call Resp σ Bool}
    (hQ : ∀ k w₁, env w (.send s.ctx.sock .fixedNewOptionReply
      (fixedNewOptionReply option reply replylen) flags) =
      (k, w₁) → Q (.ret (decide (20 ≤ asSize k.1))) s w₁ [⟨.send .., k⟩]) :
    wp env (sendOptionReply option reply replylen flags) Q s w := hQ _ _ rfl

theorem wp_sendPiece {obj : Obj} {buf : Bytes} {Q : Post Shared Call Resp σ Bool}
    (hQ : ∀ k w₁, env w (.send s.ctx.sock obj buf MSG_MORE) = (k, w₁) →
      Q (.ret (decide (buf.length ≤ asSize k.1))) s w₁ [⟨.send .., k⟩]) :
    wp env (sendPiece obj buf) Q s w := hQ _ _ rfl

theorem sendListEntry_answered (option : UInt32) (context : Context) (w : σ) :
    wp env (sendListEntry option context) (Answered s) s w := by
  refine answered_and (fun w => ?_)
    (answered_and (fun w => ?_) (answered_and (fun w => ?_) fun w => ?_)) w
  · exact wp_sendOptionReply fun k w₁ _ => ⟨rfl, by simp [Answers], _, rfl⟩
  · exact wp_sendPiece fun k w₁ _ => ⟨rfl, by simp [Answers], _, rfl⟩
  · exact wp_sendPiece fun k w₁ _ => ⟨rfl, by simp [Answers], _, rfl⟩
  · exact wp_sendPiece fun k w₁ _ => ⟨rfl, by simp [Answers], _, rfl⟩

theorem sendList_answered (option : UInt32) (w : σ) :
    wp env (sendList option) (Answered s) s w := by
  refine wp_loop_total env (Q := Answered s)
    (fun i s' _ h => s' = s ∧ (∀ e ∈ calls h, Answers s.ctx.sock e) ∧ i ≤ MAX_CONTEXTS)
    (fun i _ _ => MAX_CONTEXTS - i) ?_ _ 0 s w [] (by decide) ⟨rfl, by simp, by decide⟩
  rintro i s' w' h ⟨rfl, hh, hi⟩
  rw [wp_bind, wp_read, Post.seq_ret, Post.after_nil]
  dsimp only
  split
  case isTrue hlt =>
    rw [wp_bind]
    refine wp_mono env ?_ (sendListEntry_answered option _ w')
    rintro o s'' w'' h' ⟨rfl, hh', b, rfl⟩
    have hall : ∀ e ∈ calls (h ++ h'), Answers s''.ctx.sock e := calls_forall_append hh hh'
    cases b with
    | false => exact ⟨rfl, by simpa using hall, false, rfl⟩
    | true => exact ⟨⟨rfl, by simpa using hall, by omega⟩, by omega⟩
  case isFalse => exact ⟨rfl, by simpa using hh, true, rfl⟩

/-! ### The export reply -/

theorem exportReplyLen_cases (cflags : UInt32) :
    exportReplyLen cflags = 10 ∨ exportReplyLen cflags = 134 := by
  unfold exportReplyLen
  split_ifs
  · exact .inl rfl
  · exact .inr rfl

@[simp] theorem length_exportReply (ctx : ContextNbd) :
    (exportReply ctx cflags).length = exportReplyLen cflags := by
  rw [exportReply, List.length_take, length_exportNameOptionReply]
  rcases exportReplyLen_cases cflags with h | h <;> omega

theorem exportReply_exportsize (ctx : ContextNbd) :
    (exportReply ctx cflags).slice 0 8 = toBe64 ctx.exportsize.toUInt64 := by
  have hlen : 8 ≤ exportReplyLen cflags := by
    rcases exportReplyLen_cases cflags with h | h <;> omega
  rw [exportReply, List.slice_take hlen, exportNameOptionReply, List.slice_append_left (by simp),
    List.slice_append_left (by simp), List.slice_eq_self (by simp)]

/-- The flags of an export reply are those that are announced. -/
theorem exportReply_eflags (ctx : ContextNbd) :
    be16 ((exportReply ctx cflags).slice 8 2) = announcedEflags ctx := by
  have hlen : 10 ≤ exportReplyLen cflags := by
    rcases exportReplyLen_cases cflags with h | h <;> omega
  rw [exportReply, List.slice_take hlen, exportNameOptionReply, List.slice_append_left (by simp),
    List.slice_append_right (by simp), length_toBe64, List.slice_eq_self (by simp), be16_toBe16]

/-! ### Handling an option -/

/-- The export that was looked up is answered with: its size and flags are sent, as `ctx` has
them. -/
def Post.thenExport (env : Env Call Resp σ) (cflags : UInt32) (c : NbdClient)
    (Q : Post Shared Call Resp σ OptCtl) : Post Shared Call Resp σ (Option ContextIdx) :=
  Q.seq fun e h s w => (e = none → Q (.ret (.done (-1, { c with ctx := none }))) s w h) ∧
    ∀ i, e = some i → ∀ k w₁,
      env w (.send s.ctx.sock .handshakeFinish (exportReply s.ctx cflags) 0) = (k, w₁) →
      (asSize k.1 < exportReplyLen cflags →
        Q (.ret (.done (-1, { c with ctx := some i }))) s w₁ (h ++ [⟨.send .., k⟩])) ∧
      (exportReplyLen cflags ≤ asSize k.1 → Q (.ret (.done (0, { c with ctx := some i })))
        { s with ctx := { s.ctx with state := .transmission } } w₁ (h ++ [⟨.send .., k⟩]))

/-- `NBD_OPT_EXPORT_NAME`: the export is looked up, and answered with. -/
theorem wp_optExportName {optlen : UInt32} {Q : Post Shared Call Resp σ OptCtl}
    (hQ : wp env (lookup x.c (askedName x optlen)) (Post.thenExport env cflags x.c Q) s w) :
    wp env (optExportName cflags x optlen) Q s w := by
  rw [optExportName, selectContext_eq, wp_bind]
  refine wp_mono env ?_ hQ
  rintro ((_ | i) | e) s' w' h hQ
  · rw [Post.seq_ret]
    simpa using hQ.1 rfl
  · rw [Post.seq_ret]
    obtain ⟨hcut, hsent⟩ := hQ.2 i rfl _ _ rfl
    simp only [reduceCtorEq, if_false, wp_bind, wp_ctxNow, Post.seq_ret,
      wp_syncSend, Post.after_after]
    split_ifs with hk
    · simpa using hcut hk
    · rw [wp_bind, wp_modify, Post.seq_ret, wp_pure]
      simpa using hsent (Nat.le_of_not_lt hk)
  · exact hQ

/-- `NBD_OPT_ABORT`: it is acknowledged, and ends the handshake. -/
theorem wp_optAbort {option : UInt32} {Q : Post Shared Call Resp σ OptCtl}
    (hcut : ∀ k w₁, env w (.send s.ctx.sock .fixedNewOptionReply
      (fixedNewOptionReply option NBD_REP_ACK 0) 0) = (k, w₁) → asSize k.1 < 20 →
      Q (.ret (.done (-1, x.c))) s w₁ [⟨.send .., k⟩])
    (hsent : ∀ k w₁, env w (.send s.ctx.sock .fixedNewOptionReply
      (fixedNewOptionReply option NBD_REP_ACK 0) 0) = (k, w₁) → 20 ≤ asSize k.1 →
      Q (.ret (.done (0, x.c))) { s with ctx := { s.ctx with state := .abort } }
  w₁ [⟨.send .., k⟩]) :
    wp env (optAbort x option) Q s w := by
  rw [optAbort, wp_bind]
  refine wp_sendOptionReply fun k w₁ hk => ?_
  rw [Post.seq_ret]
  by_cases hlt : 20 ≤ asSize k.1
  · rw [if_pos (by simpa using hlt)]
    rw [wp_bind, wp_modify, Post.seq_ret, wp_pure]
    exact hsent k w₁ hk hlt
  · rw [if_neg (by simpa using hlt)]
    exact hcut k w₁ hk (Nat.lt_of_not_le hlt)

/-- `NBD_OPT_LIST`, and the options that are not supported: they are answered. -/
theorem wp_optAnswered {p : Server Bool} {Q : Post Shared Call Resp σ OptCtl}
    (hp : wp env p (Answered s) s w)
    (hnext : ∀ w₁ h, (∀ e ∈ calls h, Answers s.ctx.sock e) → Q (.ret (.next x)) s w₁ h)
    (hcut : ∀ w₁ h, (∀ e ∈ calls h, Answers s.ctx.sock e) → Q (.ret (.done (-1, x.c))) s w₁ h) :
    wp env (do if ← p then pure (.next x) else pure (.done (-1, x.c))) Q s w := by
  rw [wp_bind]
  refine wp_mono env ?_ hp
  rintro o s' w' h ⟨rfl, hh, (_ | _), rfl⟩
  · simpa using hcut w' h hh
  · simpa using hnext w' h hh

/-- The rule for an option. -/
theorem wp_handleOption {option optlen : UInt32} {Q : Post Shared Call Resp σ OptCtl}
    (hexport : option = NBD_OPT_EXPORT_NAME →
      wp env (lookup x.c (askedName x optlen)) (Post.thenExport env cflags x.c Q) s w)
    (habort : option = NBD_OPT_ABORT → ∀ k w₁,
      env w (.send s.ctx.sock .fixedNewOptionReply (fixedNewOptionReply NBD_OPT_ABORT NBD_REP_ACK 0)
      0) = (k, w₁) → 20 ≤ asSize k.1 →
      Q (.ret (.done (0, x.c))) { s with ctx := { s.ctx with state := .abort } } w₁ [⟨.send .., k⟩])
    (hnext : option ≠ NBD_OPT_EXPORT_NAME → option ≠ NBD_OPT_ABORT → ∀ w₁ h,
      (∀ e ∈ calls h, Answers s.ctx.sock e) → Q (.ret (.next x)) s w₁ h)
    (hcut : option ≠ NBD_OPT_EXPORT_NAME → ∀ w₁ h, (∀ e ∈ calls h, Answers s.ctx.sock e) →
      Q (.ret (.done (-1, x.c))) s w₁ h) :
    wp env (handleOption cflags x option optlen) Q s w := by
  unfold handleOption
  split_ifs with h₁ h₂ h₃
  · exact wp_optExportName (hexport h₁)
  · subst h₂
    exact wp_optAbort (fun k w₁ _ _ => hcut h₁ w₁ _ (by simp [Answers])) (habort rfl)
  · rw [optList, wp_bind]
    refine wp_mono env ?_ (sendList_answered option w)
    rintro o s' w' h ⟨rfl, hh, (_ | _), rfl⟩
    · exact hcut h₁ w' _ (by simpa using hh)
    · rw [Post.seq_ret, if_pos rfl]
      refine wp_optAnswered (wp_sendOptionReply fun k w₁ _ => ⟨rfl, by simp [Answers], _, rfl⟩)
        (fun w₁ h' hh' => hnext h₁ h₂ w₁ _ (calls_forall_append hh hh'))
        (fun w₁ h' hh' => hcut h₁ w₁ _ (calls_forall_append hh hh'))
  · exact wp_optAnswered (wp_sendOptionReply fun k w₁ _ => ⟨rfl, by simp [Answers], _, rfl⟩)
      (hnext h₁ h₂) (hcut h₁)

/-! ### The greeting -/

/-- A call that greets the client. -/
def Greets (sock : ℤ) : Call → Prop
  | .uninit _ => True
  | .send k .newHs _ _ | .recv k .cflags _ => k = sock
  | _ => False

/-- A greeting is sent. -/
def Call.isGreeting : Call → Bool
  | .send _ .newHs _ _ => true
  | _ => false

/-- How many greetings are sent. -/
def greetings (h : List Ev) : ℕ := (calls h).countP Call.isGreeting

@[simp] theorem greetings_nil : greetings [] = 0 := rfl

@[simp] theorem greetings_append (h h' : List Ev) :
    greetings (h ++ h') = greetings h + greetings h' := by
  simp [greetings]

theorem greetings_eq_zero {h : List Ev} (hh : ∀ e ∈ calls h, e.isGreeting = false) :
    greetings h = 0 :=
  List.countP_eq_zero.mpr fun e he => by simp [hh e he]

variable {client : NbdClient}

/-- The client is greeted once, and goes on if its flags are those of the server. -/
theorem greet_greets :
    wp env (greet client) (fun o s' _ h => s' = s ∧ (∀ e ∈ calls h, Greets client.sock e) ∧
      greetings h = 1 ∧ (o = .ret none ∨ o = .ret (some s.ctx.gflags))) s w := by
  simp only [greet, wp_bind, wp_perform, wp_ctxNow, wp_syncSend, Post.seq_ret, Post.after_after]
  by_cases hsent : asSize (env (env w (.uninit 4)).2 (.send client.sock .newHs
      (newHandshake s.ctx.gflags.toUInt16) 0)).1.1 < 18
  · rw [if_pos hsent]
    exact ⟨rfl, by simp [Greets], rfl, .inl rfl⟩
  rw [if_neg hsent, wp_bind, wp_syncRecv, Post.seq_ret]
  split
  · exact ⟨rfl, by simp [Greets], rfl, .inl rfl⟩
  rw [wp_bind, wp_ctxNow, Post.seq_ret]
  split
  · exact ⟨rfl, by simp [Greets], rfl, .inl rfl⟩
  case isFalse hflags =>
    refine ⟨rfl, by simp [Greets], rfl, .inr ?_⟩
    exact congrArg (Outcome.ret ∘ some) (not_not.mp hflags)

/-! ### The handshake -/

/-- A call that is made in a handshake before an export is asked for. -/
def Haggles (s : Shared) (sock : ℤ) (e : Call) : Prop :=
  Greets sock e ∨ ReadsOption sock e ∨ Answers s.ctx.sock e

/-- Nothing was done but to greet the client, once, and to read its options and answer them. -/
structure Haggled (s : Shared) (sock : ℤ) (h : List Ev) : Prop where
  /-- Nothing else was done. -/
  calls : ∀ e ∈ calls h, Haggles s sock e
  /-- The client was greeted once. -/
  greeted : greetings h = 1

theorem Haggled.append {h h' : List Ev} (hh : Haggled s client.sock h)
    (hh' : ∀ e ∈ Resumption.calls h', Haggles s client.sock e ∧ e.isGreeting = false) :
    Haggled s client.sock (h ++ h') := by
  refine ⟨?_, ?_⟩
  · exact calls_forall_append hh.calls fun e he => (hh' e he).1
  · rw [greetings_append, hh.greeted, greetings_eq_zero fun e he => (hh' e he).2]

theorem ReadsOption.haggles {sock : ℤ} {e : Call} (h : ReadsOption sock e) :
    Haggles s sock e ∧ e.isGreeting = false := by
  refine ⟨.inr (.inl h), ?_⟩
  cases e <;> first | rfl | exact h.elim

theorem Answers.haggles {sock : ℤ} {e : Call} (h : Answers s.ctx.sock e) :
    Haggles s sock e ∧ e.isGreeting = false := by
  refine ⟨.inr (.inr h), ?_⟩
  unfold Answers at h
  split at h <;> first | rfl | exact h.elim

/-- How a handshake ends, for the client `client`: how it ends, the memory then, and the calls. -/
inductive Negotiated (s : Shared) (client : NbdClient) :
    Outcome (ℤ × NbdClient) → Shared → List Ev → Prop where
  /-- No option ended it: the client was refused or left, or it went wrong. -/
  | refused {o : Outcome (ℤ × NbdClient)} {h : List Ev} : Haggled s client.sock h →
    (o = .ret (-1, client) ∨ ∃ e, o = .halt e) → Negotiated s client o s h
  /-- The client aborted it. -/
  | aborted {h : List Ev} {k : Sent _} : Haggled s client.sock h →
    Negotiated s client (.ret (0, client)) { s with ctx := { s.ctx with state := .abort } }
      (h ++ [⟨.send s.ctx.sock .fixedNewOptionReply
      (fixedNewOptionReply NBD_OPT_ABORT NBD_REP_ACK 0) 0, k⟩])
  /-- An export was asked for, and looking it up went wrong. -/
  | lost {h t : List Ev} {uri : Option Bytes} {e : Halt} {s' : Shared} : Haggled s client.sock h →
    LookedUp s uri (.halt e) s' t → Negotiated s client (.halt e) s' (h ++ t)
  /-- An export was asked for, and there is none. -/
  | unknown {h t : List Ev} {uri : Option Bytes} {s' : Shared} : Haggled s client.sock h →
    LookedUp s uri (.ret none) s' t →
    Negotiated s client (.ret (-1, { client with ctx := none })) s' (h ++ t)
  /-- An export was found, and not all of the answer went. -/
  | cut {h t : List Ev} {uri : Option Bytes} {i : ContextIdx} {s' : Shared} {k : Sent _} :
    Haggled s client.sock h → LookedUp s uri (.ret (some i)) s' t →
    Negotiated s client (.ret (-1, { client with ctx := some i })) s'
      (h ++ t ++ [⟨.send s.ctx.sock .handshakeFinish (exportReply s.ctx s.ctx.gflags) 0, k⟩])
  /-- An export was found, and answered with. -/
  | exported {h t : List Ev} {uri : Option Bytes} {i : ContextIdx} {s' : Shared} {k : Sent _} :
    Haggled s client.sock h → LookedUp s uri (.ret (some i)) s' t →
    Negotiated s client (.ret (0, { client with ctx := some i }))
      { s' with ctx := { s'.ctx with state := .transmission } }
      (h ++ t ++ [⟨.send s.ctx.sock .handshakeFinish (exportReply s.ctx s.ctx.gflags) 0, k⟩])

/-- A handshake leaves the record of the server as it was, but for its phase. -/
theorem Negotiated.frame {o : Outcome (ℤ × NbdClient)} {s' : Shared} {h : List Ev}
    (hn : Negotiated s client o s' h) : s'.ctx = { s.ctx with state := s'.ctx.state } := by
  cases hn with
  | refused | aborted => rfl
  | lost _ hl | unknown _ hl | cut _ hl => rw [hl.ctx]
  | exported _ hl => dsimp only; rw [hl.ctx]

/-- An export reply is none of the calls made before. -/
theorem Haggled.not_finish {h : List Ev} (hh : Haggled s client.sock h) {sock : ℤ}
    {buf : Bytes} {flags : ℤ} {k : Sent buf.length} :
    (⟨.send sock .handshakeFinish buf flags, k⟩ : Ev) ∉ h := by
  intro hmem
  have := hh.calls _ (List.mem_map_of_mem hmem)
  simp [Haggles, Greets, ReadsOption, Answers] at this

theorem LookedUp.not_finish {uri : Option Bytes} {o : Outcome (Option ContextIdx)}
    {s' : Shared} {h : List Ev} (hl : LookedUp s uri o s' h) {sock : ℤ} {buf : Bytes} {flags : ℤ}
    {k : Sent buf.length} : (⟨.send sock .handshakeFinish buf flags, k⟩ : Ev) ∉ h := by
  intro hmem
  exact hl.calls _ (List.mem_map_of_mem hmem)

/-- An export reply has the size and the flags of `ctx`; and the handshake that sends one and
returns `0` leaves `ctx->state` at `TRANSMISSION`. -/
theorem Negotiated.finish {o : Outcome (ℤ × NbdClient)} {s' : Shared} {h : List Ev}
    (hn : Negotiated s client o s' h) {sock : ℤ} {buf : Bytes} {flags : ℤ} {k : Sent buf.length}
    (hmem : (⟨.send sock .handshakeFinish buf flags, k⟩ : Ev) ∈ h) :
    buf = exportReply s.ctx s.ctx.gflags ∧ ∀ c', o = .ret (0, c') →
    s'.ctx.state = .transmission := by
  have hlast :
      ∀ {h t : List Ev} {uri : Option Bytes} {o : Outcome (Option
        ContextIdx)} {s' : Shared} {k' : Sent _}, Haggled s client.sock h → LookedUp s uri o s' t →
        (⟨.send sock .handshakeFinish buf flags, k⟩ : Ev) ∈ h ++ t ++
        [⟨.send s.ctx.sock .handshakeFinish (exportReply s.ctx s.ctx.gflags) 0, k'⟩] →
      buf = exportReply s.ctx s.ctx.gflags := by
    intro h t uri o s' k' hh hl hmem
    rcases List.mem_append.mp hmem with hmem | hmem
    · rcases List.mem_append.mp hmem with hmem | hmem
      · exact absurd hmem hh.not_finish
      · exact absurd hmem hl.not_finish
    · cases List.mem_singleton.mp hmem
      rfl
  cases hn with
  | refused hh => exact absurd hmem hh.not_finish
  | aborted hh =>
    rcases List.mem_append.mp hmem with hmem | hmem
    · exact absurd hmem hh.not_finish
    · cases List.mem_singleton.mp hmem
  | lost hh hl | unknown hh hl =>
    rcases List.mem_append.mp hmem with hmem | hmem
    · exact absurd hmem hh.not_finish
    · exact absurd hmem hl.not_finish
  | cut hh hl => exact ⟨hlast hh hl hmem, by simp⟩
  | exported hh hl => exact ⟨hlast hh hl hmem, fun _ _ => rfl⟩

/-- A round of the option loop goes on, having haggled, or ends the handshake. -/
theorem serveOption_negotiated {h : List Ev} (hh : Haggled c.mem client.sock h)
    (hc : c.x.c = client) :
    wp env (serveOption cfg c.mem.ctx.gflags c.x)
    (Post.round (fun o s' _ h => Negotiated c.mem client o s' h)
      (fun x s' _ h => s' = c.mem ∧ x.c = client ∧ Haggled c.mem client.sock h) h) c.mem c.env := by
  subst hc
  refine wp_serveOption (fun _ o w h' ho hreads => ?_) (fun y t _ hy hreads => ?_)
  · have hall := hh.append fun e he => (hreads e he).haggles
    rcases ho with rfl | rfl
    · exact .refused hall (.inl rfl)
    · exact .refused hall (.inr ⟨_, rfl⟩)
  · have hall := hh.append fun e he => (hreads e he).haggles
    rw [← hy] at hall ⊢
    refine wp_handleOption (fun _ => ?_) (fun _ k w₁ _ _ => ?_) (fun _ _ w₁ h' hh' => ?_)
      (fun _ w₁ h' hh' => ?_)
    · refine wp_mono env ?_ (lookup_lookedUp y.c _)
      rintro ((_ | i) | e) s' w' t hl
      · refine ⟨fun _ => ?_, by simp⟩
        rw [Post.after_apply, Post.round_done, ← List.append_assoc]
        exact .unknown hall hl
      · obtain ⟨ctx, reg⟩ := s'
        obtain rfl : ctx = c.mem.ctx := hl.ctx
        refine ⟨by simp, ?_⟩
        rintro i ⟨⟩ k w₁ -
        refine ⟨fun _ => ?_, fun _ => ?_⟩
        · rw [Post.after_apply, Post.round_done, ← List.append_assoc, ← List.append_assoc]
          exact .cut hall hl
        · rw [Post.after_apply, Post.round_done, ← List.append_assoc, ← List.append_assoc]
          exact .exported hall hl
      · rw [Post.thenExport, Post.seq_halt, Post.after_apply, Post.round_halt, ← List.append_assoc]
        exact .lost hall hl
    · rw [Post.after_apply, Post.round_done, ← List.append_assoc]
      exact .aborted hall
    · rw [Post.after_apply, Post.round_next, ← List.append_assoc]
      exact ⟨rfl, rfl, hall.append fun e he => (hh' e he).haggles⟩
    · rw [Post.after_apply, Post.round_done, ← List.append_assoc]
      exact .refused (hall.append fun e he => (hh' e he).haggles) (.inl rfl)

/-- How a handshake ends. -/
theorem handshake_negotiated : wp env (protocolHandshake cfg fuel client)
    (fun o s' _ h => Negotiated s client o s' h) s w := by
  rw [protocolHandshake, wp_bind]
  refine wp_mono env ?_ greet_greets
  rintro o s' w' h ⟨rfl, hcalls, hgreet, ho⟩
  have hh : Haggled s' client.sock h := ⟨fun e he => .inl (hcalls e he), hgreet⟩
  rcases ho with rfl | rfl
  · rw [Post.seq_ret]
    exact .refused (by simpa using hh) (.inl rfl)
  · simp only [Post.seq_ret, wp_bind, wp_perform, Post.after_after]
    refine wp_loop env (Q := fun o s'' _ h => Negotiated s' client o s'' h)
      (fun x s'' _ h => s'' = s' ∧ x.c = client ∧ Haggled s' client.sock h) ?_ ?_ fuel _
      _ _ _ ⟨rfl, rfl, ?_⟩
    · rintro x s'' w'' h ⟨rfl, rfl, hh⟩
      exact .refused hh (.inr ⟨_, rfl⟩)
    · rintro x s'' w'' h ⟨rfl, hx, hh⟩
      exact serveOption_negotiated (c := ⟨x, s'', w''⟩) hh hx
    · rw [List.append_assoc]
      exact hh.append (by simp [Haggles, Greets, Call.isGreeting])

end LwNBD
