import Mathlib.Data.List.TakeWhile
import LwNBD.Nbd.Requests
import LwNBD.Nbd.Phases

/-!
# When the transport fails

What becomes of a phase when a call of the transport fails: when it returns `-1`, or less than
was asked for. The handshake compares every result with an unsigned length, so it takes notice of
a short count, but `-1` passes for the largest. The transmission phase takes notice only where it
receives a request; the results of its other calls are logged, or end no more than the request
they are about.

## The model

* `failed`, `negative` — a call of the transport that failed, and one that returned `-1`.
* `FailureEnds`, `FailureEndsHandshake` — what is expected of a run in which a call fails.
* `UpTo` — a run goes on until a count is short, and ends there.

## What is proved

* `failure_ends_transmission` — a failure ends the transmission phase in every run in which no call
  fails but the receipt of a request, and none is read from it; and in no round does it end the
  phase otherwise.
* `failure_ends_handshake` — a count that is short ends the handshake in every run, and every
  failure does in a run in which nothing returns `-1`.
-/

namespace LwNBD

open Resumption

/-! ### Failures -/

/-- The transport did less than was asked for. -/
def failed : Ev → Bool
  | ⟨.recv _ _ len, r⟩ => r.ret < len
  | ⟨.send _ _ buf _, k⟩ => k.1 < buf.length
  | _ => false

/-- The transport returned `-1`. -/
def negative : Ev → Bool
  | ⟨.recv .., r⟩ => r.ret < 0
  | ⟨.send .., k⟩ => k.1 < 0
  | _ => false

/-- The transport returned a count, of less than was asked for. -/
def short (e : Ev) : Bool := failed e && !negative e

/-- Something is sent, a plugin is called, or a request is interpreted. -/
def Call.goesOn : Call → Bool
  | .note (.index .nbdCommands _) => true
  | e => e.isSend || e.isBackend

/-- An export is looked up. -/
def Call.isLookup : Call → Bool
  | .note (.enter (.lwnbdGetContext _)) => true
  | _ => false

/-- An export reply is sent. -/
def Call.isFinish : Call → Bool
  | .send _ .handshakeFinish _ _ => true
  | _ => false

/-- What is done after the first call that failed. -/
def afterFailure (h : List Ev) : List Ev := (h.dropWhile fun e => !failed e).tail

/-- A failure ends the transmission phase. -/
structure FailureEnds (o : Outcome ℤ) (h : List Ev) : Prop where
  /-- After it nothing is sent, no plugin is called and no request is interpreted. -/
  silent : ∀ e ∈ calls (afterFailure h), e.goesOn = false
  /-- The phase returns `-1`. -/
  returns : (∃ e ∈ h, failed e) → o = .ret (-1)

/-- A failure ends the handshake of a client, from memory `s`. -/
structure FailureEndsHandshake (s : Shared) (client : NbdClient) (o : Outcome (ℤ × NbdClient))
    (s' : Shared) (h : List Ev) : Prop where
  /-- After it nothing is sent, and no export is looked up. -/
  silent : ∀ e ∈ calls (afterFailure h), e.isSend = false ∧ e.isLookup = false
  /-- The handshake returns `-1` and leaves `ctx->state` as it was; and `c->ctx` too, unless it was
  set before the export reply that failed. -/
  returns : (∃ e ∈ h, failed e) → ∃ c', o = .ret (-1, c') ∧ s'.ctx.state = s.ctx.state ∧
    (c' = client ∨ ∃ pre e, h = pre ++ [e] ∧ e.1.isFinish = true)

theorem short_of_failed {e : Ev} (h : failed e = true) (hn : negative e = false) :
    short e = true := by
  simp [short, h, hn]

theorem afterFailure_of_none {h : List Ev} (hh : ∀ e ∈ h, failed e = false) :
    afterFailure h = [] := by
  rw [afterFailure, List.dropWhile_eq_nil_iff.mpr fun e he => by simp [hh e he]]
  rfl

theorem afterFailure_last {h : List Ev} {a : Ev} (hh : ∀ e ∈ h, failed e = false) :
    afterFailure (h ++ [a]) = [] := by
  have hdrop : h.dropWhile (fun e => !failed e) = [] := List.dropWhile_eq_nil_iff.mpr fun e he => by
    simp [hh e he]
  rw [afterFailure, List.dropWhile_append, hdrop]
  cases ha : failed a with
  | false => simp [ha]
  | true => simp [ha]

/-- Something is done after a failure that is not the last call. -/
theorem afterFailure_ne_nil {h : List Ev} {a e : Ev} (he : e ∈ h ++ [a]) (hf : failed e = true)
    (ha : failed a = false) : afterFailure (h ++ [a]) ≠ [] := by
  have hdrop : h.dropWhile (fun e => !failed e) ≠ [] := by
    intro hnil
    rcases List.mem_append.mp he with he | he
    · have := List.dropWhile_eq_nil_iff.mp hnil e he
      simp [hf] at this
    · rw [List.mem_singleton.mp he, ha] at hf
      cases hf
  rw [afterFailure, List.dropWhile_append, if_neg (by simpa using hdrop)]
  cases hl : h.dropWhile (fun e => !failed e) with
  | nil => exact absurd hl hdrop
  | cons b l => simp

variable {σ : Type} {env : Env Call Resp σ} {cfg : Config} {fuel : ℕ} {s : Shared} {w : σ}

/-! ### The transmission phase -/

section Transmission

variable {c : ReqHead σ} {q : NbdRequest}

theorem failureEnds_of_none {o : Outcome ℤ} {h : List Ev} (hh : ∀ e ∈ h, failed e = false) :
    FailureEnds o h where
  silent := by simp [afterFailure_of_none hh]
  returns := by
    rintro ⟨e, he, hf⟩
    simp [hh e he] at hf

/-- A failure of the last call, with which the phase returns. -/
theorem failureEnds_last {h : List Ev} {a : Ev} (hh : ∀ e ∈ h, failed e = false) :
    FailureEnds (.ret (-1)) (h ++ [a]) where
  silent := by simp [afterFailure_last hh]
  returns := fun _ => rfl

/-- A round ends the phase, and the call that fails is its last. -/
def EndsThere (x : Result Shared Call Resp σ (Ctl Vars ℤ)) : Prop :=
  x.out = .ret (.done (-1)) ∧ afterFailure x.trace = []

variable (cfg) (fuel) in
/-- When no request is read, the round is its receipt. -/
theorem roundAt_none (hq : requestAt env c = none) :
    (roundAt env cfg fuel c).out = .ret (.done (-1)) ∧
    (roundAt env cfg fuel c).trace = [⟨.recv c.mem.ctx.sock .request 28, (recvAt env c).1⟩] := by
  suffices wp env (serveIn cfg fuel c.mem c.x) (fun o _ _ h => o = .ret (.done (-1)) ∧
      h = [⟨.recv c.mem.ctx.sock .request 28, (recvAt env c).1⟩]) c.mem c.env from this
  exact wp_round_none hq ⟨rfl, rfl⟩

/-- A round that reads a request ends the phase only after a plugin could not read. -/
theorem round_done (hc : c.x.Ok cfg c.mem.ctx.minimumBlockSize) (hq : requestAt env c = some q) :
    wp env (serveIn cfg fuel c.mem c.x) (fun o _ _ h => o = .ret (.done (-1)) →
      ∃ h₀ e, h = h₀ ++ [e] ∧ failed e = false) c.mem c.env := by
  have H : RoundRules env cfg c.mem.ctx.minimumBlockSize c q
      (fun o _ _ h => o = .ret (.done (-1)) → ∃ h₀ e, h = h₀ ++ [e] ∧ failed e = false)
      (fun _ _ _ => True) (fun _ _ _ _ => True) :=
    { readLoop := fun _ =>
        { leave := by simp
          null := by simp
          sent := fun _ _ _ _ _ _ _ _ => trivial
          cut := by simp
          again := fun _ _ _ _ _ _ _ => trivial
          fail := fun _ _ _ _ _ _ _ _ => ⟨_, _, rfl, rfl⟩ }
      readRefused := fun _ _ _ _ _ => trivial
      readAccepted := fun _ _ _ _ _ _ => trivial
      readZero := by simp
      writeLoop := fun _ =>
        { leave := by simp
          null := by simp
          written := fun _ _ _ _ _ _ _ _ _ => trivial
          failed := fun _ _ _ _ _ _ _ _ _ => trivial
          cut := fun _ _ _ _ _ => trivial }
      writeRefused := fun _ _ => trivial
      writeAccepted := fun _ _ _ => trivial
      writeZero := by simp
      disc := by simp
      flush := by simp
      flushNull := by simp
      other := by simp }
  exact H.round hq (by simp) (by simp) hc

/-- A failure ends the phase in the round it happens in if and only if no request is read there. -/
theorem endsThere_iff (hc : c.x.Ok cfg c.mem.ctx.minimumBlockSize)
    (hf : ∃ e ∈ (roundAt env cfg fuel c).trace, failed e) :
    EndsThere (roundAt env cfg fuel c) ↔ requestAt env c = none := by
  constructor
  · rintro ⟨ho, hlast⟩
    cases hq : requestAt env c with
    | none => rfl
    | some q =>
      obtain ⟨h₀, a, htrace, ha⟩ := round_done hc hq ho
      obtain ⟨e, he, hfe⟩ := hf
      change (roundAt env cfg fuel c).trace = h₀ ++ [a] at htrace
      rw [htrace] at he hlast
      exact absurd hlast (afterFailure_ne_nil he hfe ha)
  · intro hq
    obtain ⟨ho, htrace⟩ := roundAt_none cfg fuel hq
    refine ⟨ho, ?_⟩
    rw [htrace]
    exact afterFailure_last (h := []) (by simp)

/-- **When the transport fails in the transmission phase.** In every run in which no call fails but
the receipt of a request, where none is read, a failure ends the phase. In every run, a failure ends
the phase in its own round if and only if no request is read in it. -/
theorem failure_ends_transmission (env : Env Call Resp σ) (cfg : Config) (fuel : ℕ)
    (s : Shared) (w : σ) :
    ((∀ c, AtRequest env cfg fuel (fun _ => True) s w c → requestAt env c ≠ none →
        ∀ e ∈ (roundAt env cfg fuel c).trace, failed e = false) →
      FailureEnds ((transmissionPhase cfg fuel).run env s w).out
      ((transmissionPhase cfg fuel).run env s w).trace) ∧
    ∀ c, AtRequest env cfg fuel (fun _ => True) s w c →
    (∃ e ∈ (roundAt env cfg fuel c).trace, failed e) →
      (EndsThere (roundAt env cfg fuel c) ↔ requestAt env c = none) := by
  constructor
  · intro hok
    suffices wp env (transmissionPhase cfg fuel) (fun o _ _ h => FailureEnds o h) s w from this
    refine wp_transmissionPhase ?_
    refine wp_loop env (fun x s' w' h => AtRequest env cfg fuel (fun _ => True) s w ⟨x, s', w'⟩ ∧
      ∀ e ∈ h, failed e = false) ?_ ?_ fuel _ _ _ _ ⟨.refl, by simp [failed]⟩
    · rintro x s' w' h ⟨-, hh⟩
      exact failureEnds_of_none hh
    · rintro x s' w' h ⟨hc, hh⟩
      let c : ReqHead σ := ⟨x, s', w'⟩
      obtain ⟨rfl, -⟩ := hc.frame
      cases hq : requestAt env c with
      | none => exact wp_round_none (c := c) hq (failureEnds_last hh)
      | some q =>
        have hall := hok c hc (by simp [hq])
        unfold roundAt Head.round at hall
        unfold wp
        have hboth : ∀ e ∈ h ++ ((serveIn cfg fuel s' x).run env s' w').trace,
            failed e = false := by
          intro e he
          rcases List.mem_append.mp he with he | he
          · exact hh e he
          · exact hall e he
        rcases ho : ((serveIn cfg fuel s' x).run env s' w').out with (x' | r) | e
        · exact ⟨hc.tail ⟨trivial, ho, rfl, rfl⟩, hboth⟩
        · exact failureEnds_of_none hboth
        · exact failureEnds_of_none hboth
  · intro c hc hf
    obtain ⟨rfl, hx⟩ := hc.frame
    exact endsThere_iff hx hf

end Transmission

/-! ### Up to a short count -/

/-- No count was short. -/
def AllWent (h : List Ev) : Prop := ∀ e ∈ h, short e = false

/-- The last call is `e`, the first whose count was short. -/
def Cut (h : List Ev) (e : Ev) : Prop := ∃ h₀, h = h₀ ++ [e] ∧ AllWent h₀ ∧ short e = true

@[simp] theorem allWent_nil : AllWent [] := by simp [AllWent]

theorem AllWent.append {h t : List Ev} (hh : AllWent h) (ht : AllWent t) : AllWent (h ++ t) := by
  intro e he
  rcases List.mem_append.mp he with he | he
  · exact hh e he
  · exact ht e he

theorem AllWent.cut {h t : List Ev} {e : Ev} (hh : AllWent h) (ht : Cut t e) : Cut (h ++ t) e := by
  obtain ⟨h₀, rfl, h₀went, he⟩ := ht
  exact ⟨h ++ h₀, by simp, hh.append h₀went, he⟩

theorem allWent_of_calls {h : List Ev} (hh : ∀ e ∈ calls h, e.isSend = false ∧ e.isRecv = false) :
    AllWent h := by
  rintro ⟨e, r⟩ he
  have := hh e (List.mem_map_of_mem he)
  cases e <;> simp [Call.isSend, Call.isRecv] at this <;> rfl

variable {α β : Type}

/-- A run goes on until a count is short: it ends with the call whose count is, and `g` holds of
its result. -/
def UpTo (g : α → Ev → Prop) : Post Shared Call Resp σ α := fun o _ _ h =>
  AllWent h ∨ ∃ e a, Cut h e ∧ o = .ret a ∧ g a e

/-- A sequence goes on until a count is short if its parts do, and the second does nothing after one
that was; `P` is what is known of the result of the first. -/
theorem upTo_bind_of {p : Server α} {f : α → Server β} {g : α → Ev → Prop}
    {g' : β → Ev → Prop} (P : α → Prop) (hp : wp env p (UpTo g) s w)
    (hP : wp env p (fun o _ _ _ => ∀ a, o = .ret a → P a) s w)
    (hcut : ∀ a e, g a e → ∃ b, f a = pure b ∧ g' b e)
    (hf : ∀ a s' w', P a → wp env (f a) (UpTo g') s' w') : wp env (p >>= f) (UpTo g') s w := by
  rw [wp_bind]
  refine wp_mono env ?_ (wp_and hp hP)
  rintro (a | o) s' w' h ⟨hh | ⟨e, a', hh, ho, hg⟩, hPa⟩
  · rw [Post.seq_ret]
    refine wp_mono env ?_ (hf a s' w' (hPa a rfl))
    rintro o s'' w'' t (ht | ⟨e, b, ht, ho, hg⟩)
    · exact .inl (hh.append ht)
    · exact .inr ⟨e, b, hh.cut ht, ho, hg⟩
  · cases ho
    obtain ⟨b, hfb, hg'⟩ := hcut a e hg
    rw [Post.seq_ret, hfb, wp_pure]
    exact .inr ⟨e, b, by simpa using hh, rfl, hg'⟩
  · exact .inl hh
  · cases ho

theorem upTo_bind {p : Server α} {f : α → Server β} {g : α → Ev → Prop} {g' : β → Ev → Prop}
    (hp : wp env p (UpTo g) s w) (hcut : ∀ a e, g a e → ∃ b, f a = pure b ∧ g' b e)
    (hf : ∀ a s' w', wp env (f a) (UpTo g') s' w') : wp env (p >>= f) (UpTo g') s w :=
  upTo_bind_of (fun _ => True) hp (wp_of_forall env (by simp)) hcut fun a s' w' _ => hf a s' w'

/-- One call: `g` must hold of the result when the count is short. -/
theorem upTo_call {e : Call} {r : Resp e} {a : α} {g : α → Ev → Prop} {s' : Shared} {w' : σ}
    (h : short ⟨e, r⟩ = true → g a ⟨e, r⟩) : UpTo g (.ret a) s' w' [⟨e, r⟩] := by
  cases hs : short ⟨e, r⟩ with
  | true => exact .inr ⟨_, _, ⟨[], rfl, allWent_nil, hs⟩, rfl, h hs⟩
  | false => exact .inl (by simpa [AllWent] using hs)

/-- A call, and what is done with its answer: nothing, if its count is short. -/
theorem upTo_perform {e : Call} {f : Resp e → Server β} {g : β → Ev → Prop}
    (hcut : ∀ r, short ⟨e, r⟩ = true → ∃ b, f r = pure b ∧ g b ⟨e, r⟩)
    (hf : ∀ r s' w', wp env (f r) (UpTo g) s' w') : wp env (Prog.perform e >>= f) (UpTo g) s w := by
  refine upTo_bind (g := fun r e' => e' = ⟨e, r⟩ ∧ short e' = true) (upTo_call fun h => ⟨rfl, h⟩) ?_
    hf
  rintro r _ ⟨rfl, h⟩
  exact hcut r h

theorem upTo_ctxNow {f : ContextNbd → Server β} {g : β → Ev → Prop}
    (hf : wp env (f s.ctx) (UpTo g) s w) : wp env (ctxNow >>= f) (UpTo g) s w := by
  rw [wp_bind, wp_ctxNow, Post.seq_ret, Post.after_nil]
  exact hf

theorem upTo_pure {g : α → Ev → Prop} {a : α} : wp env (pure a) (UpTo g) s w := .inl allWent_nil

theorem upTo_halt {g : α → Ev → Prop} {e : Halt} : wp env (.halt e) (UpTo g) s w := .inl allWent_nil

/-- A short count is less than was asked for in `size_t`. -/
theorem asSize_lt {r : ℤ} {n : ℕ} (h0 : 0 ≤ r) (h : r < n) : asSize r < n := by
  rw [asSize]
  omega

theorem short_send {sock : ℤ} {obj : Obj} {buf : Bytes} {flags : ℤ} {k : Sent buf.length} :
    short ⟨.send sock obj buf flags, k⟩ = true ↔ 0 ≤ k.1 ∧ k.1 < buf.length := by
  simp [short, failed, negative]
  omega

theorem short_recv {sock : ℤ} {obj : Obj} {len : ℕ} {r : Recvd len} :
    short ⟨.recv sock obj len, r⟩ = true ↔ 0 ≤ r.ret ∧ r.ret < len := by
  simp [short, failed, negative]
  omega

/-! ### The handshake -/

section Handshake

variable {x : OptVars} {cflags : UInt32} {client : NbdClient}

/-- The client's flags come, or the client is refused. -/
theorem greet_upTo : wp env (greet client) (UpTo fun a _ => a = none) s w := by
  refine upTo_perform (by simp [short, failed]) fun cflags s₁ w₁ => ?_
  refine upTo_ctxNow (upTo_perform (fun k h => ⟨none, ?_, rfl⟩) fun k s₂ w₂ => ?_)
  · have hlt : asSize k < 18 :=
      asSize_lt (short_send.mp h).1 (by simpa [newHandshake] using (short_send.mp h).2)
    rw [if_pos hlt]
  split_ifs
  · exact upTo_pure
  refine upTo_perform (fun r h => ⟨none, ?_, rfl⟩) fun r s₃ w₃ => ?_
  · rw [if_pos (asSize_lt (short_recv.mp h).1 (short_recv.mp h).2)]
  split_ifs
  · exact upTo_pure
  refine upTo_ctxNow ?_
  split_ifs
  · exact upTo_pure
  · exact upTo_pure

/-- The data of an option come, or the function returns. -/
theorem readOptionData_upTo {optlen : UInt32} :
    wp env (readOptionData cfg x optlen) (UpTo fun a _ => a = none) s w := by
  unfold readOptionData
  by_cases hpos : 0 < optlen
  · rw [if_pos hpos]
    refine upTo_perform (fun r h => ⟨none, ?_, rfl⟩) fun r s₁ w₁ => ?_
    · have h := short_recv.mp h
      have hlt : asUInt32 r.ret < optlen := by
        have := optlen.toNat_lt
        rw [UInt32.lt_iff_toNat_lt, asUInt32, UInt32.ofInt, UInt32.toNat_ofNat']
        omega
      rw [if_pos hlt]
    by_cases hlt : asUInt32 r.ret < optlen
    · rw [if_pos hlt]
      exact upTo_pure
    rw [if_neg hlt]
    refine upTo_perform (by simp [short, failed]) fun _ s₂ w₂ => ?_
    by_cases hlen : cfg.bufferLen ≤ optlen.toNat
    · rw [if_pos hlen]
      exact upTo_halt
    · rw [if_neg hlen]
      exact upTo_pure
  · rw [if_neg hpos]
    exact upTo_pure

theorem readOption_upTo : wp env (readOption cfg x) (UpTo fun a _ => a = none) s w := by
  refine upTo_bind (g := fun a _ => a = none) ?_ (fun a e ha => ⟨none, by rw [ha], rfl⟩)
    fun a s₁ w₁ => ?_
  · refine upTo_perform (fun r h => ⟨none, ?_, rfl⟩) fun r s₁ w₁ => ?_
    · dsimp only
      rw [if_pos (asSize_lt (short_recv.mp h).1 (short_recv.mp h).2)]
    dsimp only
    split_ifs
    · exact upTo_pure
    · exact upTo_pure
    · exact upTo_pure
  rcases a with _ | ⟨newOpt, raw⟩
  · exact upTo_pure
  dsimp only
  refine upTo_perform (by simp [short, failed]) fun _ s₂ w₂ => ?_
  split_ifs
  · exact upTo_pure
  refine upTo_bind (g := fun a _ => a = none) readOptionData_upTo
    (fun a e ha => ⟨none, by rw [ha], rfl⟩) fun a s₃ w₃ => ?_
  rcases a with _ | nbdBuffer
  · exact upTo_pure
  · exact upTo_pure

/-- An option reply goes, or the rest is not sent. -/
theorem sendOptionReply_upTo {option reply replylen : UInt32} {flags : ℤ} :
    wp env (sendOptionReply option reply replylen flags) (UpTo fun b _ => b = false) s w := by
  refine upTo_ctxNow (upTo_perform (fun k h => ⟨false, ?_, rfl⟩) fun k s₁ w₁ => upTo_pure)
  have hlt : asSize k < 20 :=
    asSize_lt (short_send.mp h).1 (by simpa [fixedNewOptionReply] using (short_send.mp h).2)
  rw [decide_eq_false (Nat.not_le_of_lt hlt)]

theorem sendPiece_upTo {obj : Obj} {buf : Bytes} :
    wp env (sendPiece obj buf) (UpTo fun b _ => b = false) s w := by
  refine upTo_ctxNow (upTo_perform (fun k h => ⟨false, ?_, rfl⟩) fun k s₁ w₁ => upTo_pure)
  rw [decide_eq_false (Nat.not_le_of_lt (asSize_lt (short_send.mp h).1 (short_send.mp h).2))]

/-- Two parts of an answer, the second if all of the first went. -/
theorem upTo_and {p q : Server Bool} (hp : ∀ s w, wp env p (UpTo fun b _ => b = false) s w)
    (hq : ∀ s w, wp env q (UpTo fun b _ => b = false) s w) (s : Shared) (w : σ) :
    wp env (do if ← p then q else pure false) (UpTo fun b _ => b = false) s w := by
  refine upTo_bind (hp s w) (fun b e hb => ⟨false, by simp [hb], rfl⟩) fun b s₁ w₁ => ?_
  cases b with
  | false => exact upTo_pure
  | true => exact hq s₁ w₁

theorem sendListEntry_upTo {option : UInt32} {context : Context} (s : Shared) (w : σ) :
    wp env (sendListEntry option context) (UpTo fun b _ => b = false) s w :=
  upTo_and (fun _ _ => sendOptionReply_upTo) (upTo_and (fun _ _ => sendPiece_upTo)
    (upTo_and (fun _ _ => sendPiece_upTo) fun _ _ => sendPiece_upTo)) s w

/-- A loop goes on until a count is short if its rounds do, and leave it then. -/
theorem upTo_loop {X ρ : Type} {body : X → Server (Ctl X ρ)} {g : ρ → Ev → Prop} (I : X → Prop)
    (hbody : ∀ x s w, I x → wp env (body x) (UpTo fun a e => ∃ r, a = .done r ∧ g r e) s w)
    (hI : ∀ x s w, I x → wp env (body x) (fun o _ _ _ => ∀ x', o = .ret (.next x') → I x') s w)
    (n : ℕ) (x : X) (s : Shared) (w : σ) (hx : I x) : wp env (Prog.loop n body x) (UpTo g) s w := by
  induction n generalizing x s w with
  | zero => exact upTo_halt
  | succ n ih =>
    rw [wp_loop_succ]
    refine wp_mono env ?_ (wp_and (hbody x s w hx) (hI x s w hx))
    rintro ((x' | r) | e) s' w' h ⟨hh | ⟨e', a, hh, ho, r', rfl, hg⟩, hnext⟩
    · rw [Post.round_next]
      refine wp_mono env ?_ (ih x' s' w' (hnext x' rfl))
      rintro o s'' w'' t (ht | ⟨e, b, ht, ho, hg⟩)
      · exact .inl (hh.append ht)
      · exact .inr ⟨e, b, hh.cut ht, ho, hg⟩
    · cases ho
    · exact .inl hh
    · cases ho
      exact .inr ⟨e', r, hh, rfl, hg⟩
    · exact .inl hh
    · cases ho

theorem sendList_upTo {option : UInt32} (s : Shared) (w : σ) :
    wp env (sendList option) (UpTo fun b _ => b = false) s w := by
  refine upTo_loop (fun _ => True) (fun i s w _ => ?_) (fun i s w _ => ?_) _ _ s w trivial
  · rw [wp_bind, wp_read, Post.seq_ret, Post.after_nil]
    dsimp only
    split
    · refine upTo_bind (sendListEntry_upTo s w)
        (fun b e hb => ⟨.done false, by simp [hb], _, rfl, rfl⟩) fun b s' w' => ?_
      cases b with
      | false => exact upTo_pure
      | true => exact upTo_pure
    · exact upTo_pure
  · exact wp_of_forall env (by simp)

/-- The handshake is given up: with the client as it was, or as it is when the export reply is
sent. -/
def GivesUp (c : NbdClient) (a : ℤ × NbdClient) (e : Ev) : Prop :=
  a.1 = -1 ∧ (a.2 = c ∨ e.1.isFinish = true)

/-- Looking up an export takes no call of the transport. -/
theorem lookup_upTo {uri : Option Bytes} :
    wp env (lookup client uri) (UpTo fun _ _ => False) s w := by
  refine wp_mono env (fun o s' w' h hl => .inl (allWent_of_calls fun e he => ?_))
    (lookup_lookedUp client uri)
  have hlooks := hl.calls e he
  unfold LooksUp at hlooks
  split at hlooks
  · exact ⟨rfl, rfl⟩
  · exact ⟨rfl, rfl⟩
  · exact ⟨rfl, rfl⟩
  · exact hlooks.elim

theorem optExportName_upTo {optlen : UInt32} : wp env (optExportName cflags x optlen)
    (UpTo fun a e => ∃ r, a = .done r ∧ GivesUp x.c r e) s w := by
  rw [optExportName, selectContext_eq]
  refine upTo_bind lookup_upTo (fun _ _ h => h.elim) fun e s₁ w₁ => ?_
  dsimp only
  split_ifs
  · exact upTo_pure
  refine upTo_ctxNow (upTo_perform
    (fun k h => ⟨.done (-1, { x.c with ctx := e }), ?_, _, rfl, rfl, .inr rfl⟩) fun k s₂ w₂ => ?_)
  · rw [if_pos (asSize_lt (short_send.mp h).1 (by simpa using (short_send.mp h).2))]
  split_ifs
  · exact upTo_pure
  · exact .inl allWent_nil

/-- An answer, after which the loop goes round again. -/
theorem upTo_answer {p : Server Bool} (hp : ∀ s w, wp env p (UpTo fun b _ => b = false) s w)
    (s : Shared) (w : σ) :
    wp env (do if ← p then pure (.next x) else pure (.done (-1, x.c)) : Server OptCtl)
      (UpTo fun a e => ∃ r, a = .done r ∧ GivesUp x.c r e) s w := by
  refine upTo_bind (hp s w) (fun b e hb => ⟨.done (-1, x.c), by simp [hb], _, rfl, rfl, .inl rfl⟩)
    fun b s₁ w₁ => ?_
  cases b with
  | false => exact upTo_pure
  | true => exact upTo_pure

/-- An option is handled until a count is short. -/
theorem handleOption_upTo {option optlen : UInt32} : wp env (handleOption cflags x option optlen)
    (UpTo fun a e => ∃ r, a = .done r ∧ GivesUp x.c r e) s w := by
  unfold handleOption
  split_ifs
  · exact optExportName_upTo
  · refine upTo_bind sendOptionReply_upTo
      (fun b e hb => ⟨.done (-1, x.c), by simp [hb], _, rfl, rfl, .inl rfl⟩) fun b s₁ w₁ => ?_
    cases b with
    | false => exact upTo_pure
    | true => exact .inl allWent_nil
  · refine upTo_bind (sendList_upTo s w)
      (fun b e hb => ⟨.done (-1, x.c), by simp [hb], _, rfl, rfl, .inl rfl⟩) fun b s₁ w₁ => ?_
    cases b with
    | false => exact upTo_pure
    | true => exact upTo_answer (fun _ _ => sendOptionReply_upTo) s₁ w₁
  · exact upTo_answer (fun _ _ => sendOptionReply_upTo) s w

/-- A round of the option loop keeps the client, if the loop goes round again. -/
theorem serveOption_keeps {c : OptHead σ} : wp env (serveOption cfg cflags c.x)
    (fun o _ _ _ => ∀ x', o = .ret (.next x') → x'.c = c.x.c) c.mem c.env := by
  refine wp_serveOption (fun _ o _ _ ho _ => ?_) (fun y t _ hy _ => ?_)
  · rcases ho with rfl | rfl
    · simp
    · simp
  · refine wp_handleOption (fun _ => ?_) (by simp) (fun _ _ _ _ _ => ?_) (by simp)
    · refine wp_of_forall env ?_
      rintro ((_ | i) | e) s' w' h
      · exact ⟨by simp, by simp⟩
      · exact ⟨by simp, fun _ _ _ _ _ => ⟨by simp, by simp⟩⟩
      · simp [Post.thenExport]
    · rintro x' ⟨⟩
      exact hy

/-- A handshake goes on until a count is short. -/
theorem handshake_upTo :
    wp env (protocolHandshake cfg fuel client) (UpTo (GivesUp client)) s w := by
  refine upTo_bind greet_upTo (fun a e ha => ⟨(-1, client), by rw [ha], rfl, .inl rfl⟩)
    fun a s₁ w₁ => ?_
  rcases a with _ | cflags
  · exact upTo_pure
  refine upTo_perform (by simp [short, failed]) fun newOpt s₂ w₂ => ?_
  refine upTo_perform (by simp [short, failed]) fun nbdBuffer s₃ w₃ => ?_
  refine upTo_loop (fun x => x.c = client) (fun x s w hx => ?_) (fun x s w hx => ?_) _ _ s₃ w₃ rfl
  · subst hx
    refine upTo_bind_of (fun a => ∀ y t, a = some (y, t) → y.c = x.c) readOption_upTo ?_
      (fun a e ha => ⟨.done (-1, x.c), by rw [ha], _, rfl, rfl, .inl rfl⟩) fun a s₄ w₄ hy => ?_
    · exact wp_mono env (fun o _ _ _ h a ho y t ha => h.2.2.2 y t (by rw [ho, ha])) readOption_reads
    · rcases a with _ | ⟨y, t⟩
      · exact upTo_pure
      · rw [← hy y t rfl]
        exact handleOption_upTo
  · refine wp_mono env ?_ (serveOption_keeps (c := ⟨x, s, w⟩))
    exact fun o _ _ _ h x' hx' => (h x' hx').trans hx

/-- A handshake that returns `-1` leaves the record of the server as it was. -/
theorem Negotiated.ctx_eq {o : Outcome (ℤ × NbdClient)} {s' : Shared} {h : List Ev} {c' : NbdClient}
    (hn : Negotiated s client o s' h) (ho : o = .ret (-1, c')) : s'.ctx = s.ctx := by
  cases hn with
  | refused => rfl
  | aborted => simp at ho
  | lost => cases ho
  | unknown _ hl => exact hl.ctx
  | cut _ hl => exact hl.ctx
  | exported => simp at ho

/-- **When the transport fails in the handshake.** In every run, a count that is short is the end of
it: that call is the last. And in a run in which nothing returns `-1`, a failure ends the
handshake. -/
theorem failure_ends_handshake (env : Env Call Resp σ) (cfg : Config) (fuel : ℕ)
    (client : NbdClient) (s : Shared) (w : σ) :
    let x := (protocolHandshake cfg fuel client).run env s w
    ((∃ e ∈ x.trace, short e) → ∃ c' pre e, x.out = .ret (-1, c') ∧ x.mem.ctx.state = s.ctx.state ∧
      x.trace = pre ++ [e] ∧ (∀ e ∈ pre, short e = false) ∧ (c' = client ∨ e.1.isFinish = true)) ∧
    ((∀ e ∈ x.trace, negative e = false) → FailureEndsHandshake s client x.out x.mem x.trace) := by
  intro x
  have hshort : (∃ e ∈ x.trace, short e) → ∃ c' pre e, x.out = .ret (-1, c') ∧
      x.mem.ctx.state = s.ctx.state ∧ x.trace = pre ++ [e] ∧ (∀ e ∈ pre, short e = false) ∧
      (c' = client ∨ e.1.isFinish = true) := by
    rintro ⟨e, he, hse⟩
    rcases (handshake_upTo : wp env (protocolHandshake cfg fuel client) _ s w) with
      hwent | ⟨a, ⟨r, c'⟩, hcut, ho, hr, hc⟩
    · simp [hwent e he] at hse
    · cases hr
      obtain ⟨pre, htrace, hwent, -⟩ := hcut
      have hn : wp env (protocolHandshake cfg fuel client) _ s w := handshake_negotiated
      exact ⟨c', pre, a, ho, by rw [hn.ctx_eq ho], htrace, hwent, hc⟩
  refine ⟨hshort, fun hnone => ?_⟩
  by_cases hany : ∃ e ∈ x.trace, failed e = true
  · obtain ⟨e, he, hf⟩ := hany
    obtain ⟨c', pre, a, ho, hstate, htrace, hwent, hc⟩ :=
      hshort ⟨e, he, short_of_failed hf (hnone e he)⟩
    have hpre : ∀ e ∈ pre, failed e = false := by
      intro e he
      by_contra hf
      have hse := short_of_failed (by simpa using hf) (hnone e (by simp [htrace, he]))
      simp [hwent e he] at hse
    refine ⟨by simp [htrace, afterFailure_last hpre], fun _ => ⟨c', ho, hstate, ?_⟩⟩
    exact hc.imp_right fun hfin => ⟨pre, a, htrace, hfin⟩
  · have hall : ∀ e ∈ x.trace, failed e = false := fun e he => by
      simpa using fun hf => hany ⟨e, he, hf⟩
    exact ⟨by simp [afterFailure_of_none hall], fun h => absurd h hany⟩

end Handshake

namespace Sample

/-- A client that reads a byte, and leaves. -/
def brief : Wire Unit := client (ask NBD_CMD_READ 0 1).toBytes

/-- The receipt of a second request fails, and ends the phase. -/
theorem failure_ends_transmission_brief :
    FailureEnds ((transmissionPhase Sample.cfg 4).run (wire quiet) mem brief).out
      ((transmissionPhase Sample.cfg 4).run (wire quiet) mem brief).trace := by
  refine (failure_ends_transmission (wire quiet) Sample.cfg 4 mem brief).1 fun c hc hq => ?_
  obtain ⟨n, hn, rfl⟩ :=
    hc.exists_rounds (k := 1) (Option.isNone_iff_eq_none.mp (by decide +kernel))
  have hall : ∀ n < 2, requestAt (wire quiet)
      ((firstHead (wire quiet) Sample.cfg mem brief).rounds (wire quiet)
      (serveIn Sample.cfg 4 mem) n) ≠ none →
        ∀ e ∈ (roundAt (wire quiet) Sample.cfg 4
        ((firstHead (wire quiet) Sample.cfg mem brief).rounds (wire quiet)
        (serveIn Sample.cfg 4 mem) n)).trace, failed e = false := by
    decide +kernel
  exact hall n (Nat.lt_succ_of_le hn) hq

/-- A client that leaves after half an option. -/
def halfway : Wire Unit := client (toBe32 3 ++ (option NBD_OPT_LIST 0).take 8)

/-- The receipt of the option is short, and ends the handshake. -/
theorem failure_ends_handshake_halfway :
    FailureEndsHandshake mem ⟨5, .handshake, none⟩
      ((protocolHandshake Sample.cfg 2 ⟨5, .handshake, none⟩).run (wire quiet) mem halfway).out
      ((protocolHandshake Sample.cfg 2 ⟨5, .handshake, none⟩).run (wire quiet) mem halfway).mem
      ((protocolHandshake Sample.cfg 2 ⟨5, .handshake, none⟩).run (wire quiet) mem halfway).trace ∧
    ∃ c', ((protocolHandshake Sample.cfg 2 ⟨5, .handshake, none⟩).run (wire quiet) mem
      halfway).out = .ret (-1, c') := by
  have hends := failure_ends_handshake (wire quiet) Sample.cfg 2 ⟨5, .handshake, none⟩ mem halfway
  obtain ⟨c', -, -, hout, -⟩ := hends.1 (by decide +kernel)
  exact ⟨hends.2 (by decide +kernel), c', hout⟩

/-- What comes of a request of type 5, all but its last byte, if anything comes. -/
def part (fresh : Bool) (len : ℕ) : Bytes := (ask 5 0 1).toBytes.take (if fresh then len - 1 else 0)

theorem length_part (fresh : Bool) (len : ℕ) : (part fresh len).length ≤ len := by
  refine Nat.le_trans (List.length_take_le _ _) ?_
  cases fresh with
  | false => exact Nat.zero_le len
  | true => exact Nat.sub_le len 1

theorem length_sent (b : Bytes) : (-1 : ℤ) ≤ b.length ∧ (b.length : ℤ) ≤ b.length := by omega

/-- A connection that is reset when all but the last byte of a request of type 5 have come: the
receipt returns `-1`, and so does every later one. Nothing else fails. -/
def reset : Env Call Resp Bool
  | fresh, .recv _ _ len =>
    (⟨-1, part fresh len, by omega, by omega, length_part fresh len⟩, false)
  | fresh, .send _ _ buf _ => (⟨buf.length, length_sent buf⟩, fresh)
  | fresh, e => ((quiet () e).1, fresh)

/-- **A request that did not come is interpreted**: after the receipt that returned `-1`, the
request of which a part is in memory is answered. -/
theorem failure_goes_on :
    ¬ FailureEnds ((transmissionPhase Sample.cfg 2).run reset mem true).out
      ((transmissionPhase Sample.cfg 2).run reset mem true).trace := by
  intro h
  have hall :
      ¬ ∀ e ∈ calls (afterFailure ((transmissionPhase Sample.cfg 2).run reset mem true).trace),
      e.goesOn = false := by decide +kernel
  exact hall h.silent

/-- A server whose sends all fail. -/
def deaf : Env Call Resp (Wire Unit)
  | w, .send _ _ _ _ => (⟨-1, by omega, by omega⟩, w)
  | w, e => wire quiet w e

/-- **The handshake goes on after its greeting could not be sent**: the client's flags and its
`NBD_OPT_ABORT` are read, and the handshake returns `0` with `ctx->state` at `ABORT`. -/
theorem handshake_goes_on :
    let x := (protocolHandshake Sample.cfg 2 ⟨5, .handshake, none⟩).run deaf mem
      (client (toBe32 3 ++ option NBD_OPT_ABORT 0))
    x.out = .ret (0, ⟨5, .handshake, none⟩) ∧ x.mem.ctx.state = .abort ∧
      ¬ FailureEndsHandshake mem ⟨5, .handshake, none⟩ x.out x.mem x.trace := by
  intro x
  have hout : x.out = .ret (0, ⟨5, .handshake, none⟩) := by decide +kernel
  refine ⟨hout, by decide +kernel, fun h => ?_⟩
  obtain ⟨c', ho, -⟩ := h.returns (by decide +kernel)
  rw [hout] at ho
  cases ho

end Sample

end LwNBD
