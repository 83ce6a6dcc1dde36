import LwNBD.Nbd.Indices

/-!
# Flags

The flags of the handshake. The server offers a set of them in its greeting, and the client sends a
word back. A client may leave a flag out: one that does not set `NBD_FLAG_NO_ZEROES` is to get the
zeroes of the export reply. The code has the reply for it, but refuses any word that is not the set
that was offered.

## The model

* `ClientSays` — the greeting goes, and the client's word comes.
* `Unoffered` — the word has a flag that was not offered.
* `FlagsNegotiated` — who is refused, and what the export reply of the others is.

## What is proved

* `greet_says` — the client goes on if and only if its word is the set that was offered.
* `handshake_says` — it is refused if and only if it does not go on; or it is asked for an option.
* `flag_negotiation_iff` — flags are negotiated as they should be if and only if the client sets all
  flags that were offered, or one that was not.
-/

namespace LwNBD

open Resumption

variable {σ : Type} {env : Env Call Resp σ} {cfg : Config} {fuel : ℕ} {s : Shared} {w : σ}
variable {client : NbdClient} {word : UInt32}

/-! ### The greeting -/

/-- The client says `word`: the greeting goes, and the client's word comes. -/
structure ClientSays (env : Env Call Resp σ) (client : NbdClient) (s : Shared) (w : σ)
    (word : UInt32) : Prop where
  /-- The greeting goes. -/
  greeted :
    (env (env w (.uninit 4)).2
    (.send client.sock .newHs (newHandshake s.ctx.gflags.toUInt16) 0)).1.1 = 18
  /-- All of the word comes. -/
  ret :
    (env (env (env w (.uninit 4)).2 (.send client.sock .newHs (newHandshake s.ctx.gflags.toUInt16)
    0)).2 (.recv client.sock .cflags 4)).1.ret = 4
  /-- It is `word`. -/
  data :
    (env (env (env w (.uninit 4)).2 (.send client.sock .newHs (newHandshake s.ctx.gflags.toUInt16)
    0)).2 (.recv client.sock .cflags 4)).1.data = toBe32 word

/-- Over the lossless transport, what the client says is what it sends first. -/
theorem clientSays_wire {β : Type} (host : Env Call Resp β) (client : NbdClient)
    (s : Shared) {w : Wire β} {rest : Bytes} (hin : w.input = toBe32 word ++ rest) :
    ClientSays (wire host) client s w word := by
  have hw : (wire host w (.uninit 4)).2.input = toBe32 word ++ rest := hin
  have hlen : 4 ≤ (toBe32 word ++ rest).length := by simp
  refine ⟨rfl, ?_, ?_⟩
  · rw [wire_send, wire_recv]
    exact recv_ret_of_le _ (by rw [hw]; exact hlen)
  · rw [wire_send, wire_recv]
    dsimp only
    rw [recv_data_of_le _ (by rw [hw]; exact hlen)]
    dsimp only
    rw [hw, List.take_left' (length_toBe32 word)]

/-- The client goes on if and only if its word is the set that was offered. -/
theorem greet_says (h : ClientSays env client s w word) :
    wp env (greet client) (fun o _ _ _ => o = .ret (if word = s.ctx.gflags then some word
      else none)) s w := by
  have hword : be32 (store (env w (.uninit 4)).1.1 (toBe32 word)) = word := by
    rw [store_full (by rw [length_toBe32, (env w (.uninit 4)).1.2]), be32_toBe32]
  simp only [greet, wp_bind, wp_perform, wp_ctxNow, wp_syncSend, Post.seq_ret, Post.after_after]
  rw [h.greeted, if_neg (by decide), wp_bind, wp_syncRecv, Post.seq_ret, h.ret, h.data,
    if_neg (by decide), wp_bind, wp_ctxNow, Post.seq_ret, hword]
  by_cases he : word = s.ctx.gflags
  · rw [if_neg (not_not.mpr he), if_pos he]
    rfl
  · rw [if_pos he, if_neg he]
    rfl

/-- The client is refused: the function returns before it asks for an option. -/
def ClientRefused (client : NbdClient) (o : Outcome (ℤ × NbdClient)) (h : List Ev) : Prop :=
  o = .ret (-1, client) ∧ ∀ e ∈ calls h, ∀ sock len, e ≠ .recv sock .newOpt len

theorem loop_asks {cflags : UInt32} {x : OptVars} :
    wp env (Prog.loop (fuel + 1) (serveOption cfg cflags) x)
    (fun _ _ _ h => Call.recv x.c.sock .newOpt 16 ∈ calls h) s w := by
  refine wp_loop_first env ?_
  have hfirst : ∃ t, ((serveOption cfg cflags x).run env s w).trace =
      ⟨.recv x.c.sock .newOpt 16, (env w (.recv x.c.sock .newOpt 16)).1⟩ :: t := ⟨_, rfl⟩
  obtain ⟨t, ht⟩ := hfirst
  intro o s' w' h'
  rw [ht]
  exact List.mem_cons_self

/-- The client is refused if and only if its word is not the set that was offered; and then it is
only greeted. -/
theorem handshake_says (h : ClientSays env client s w word) :
    wp env (protocolHandshake cfg fuel client)
    (fun o _ _ h => (ClientRefused client o h ↔ word ≠ s.ctx.gflags) ∧
      (word ≠ s.ctx.gflags → ∀ e ∈ calls h, Greets client.sock e)) s w := by
  have hout : ((greet client).run env s w).out = .ret (if word = s.ctx.gflags then some word
      else none) := greet_says h
  obtain ⟨-, hcalls, -, -⟩ : wp env (greet client) _ s w := greet_greets
  by_cases he : word = s.ctx.gflags
  · rw [if_pos he] at hout
    refine ⟨iff_of_false ?_ (not_not.mpr he), fun hne => absurd he hne⟩
    rintro ⟨ho, hnone⟩
    cases fuel with
    | zero =>
      rw [protocolHandshake, Prog.run_bind, Result.andThen, hout] at ho
      cases ho
    | succ n =>
      refine hnone (.recv client.sock .newOpt 16) ?_ _ _ rfl
      obtain ⟨newOpt, nbdBuffer, htrace⟩ := run_protocolHandshake cfg (n + 1) hout rfl
      rw [htrace, calls_append, calls_append]
      exact List.mem_append_right _ (List.mem_append_right _ loop_asks)
  · rw [if_neg he] at hout
    unfold wp
    rw [protocolHandshake, Prog.run_bind, Result.andThen, hout]
    have htrace : calls (((greet client).run env s w).trace ++ []) =
        calls ((greet client).run env s w).trace := by
      rw [List.append_nil]
    refine ⟨iff_of_true ⟨rfl, fun e hin sock len => ?_⟩ he, fun _ e hin => hcalls e (htrace ▸ hin)⟩
    rintro rfl
    exact hcalls _ (htrace ▸ hin)

/-! ### Every word -/

/-- The word has a flag that was not offered. -/
def Unoffered (offered : UInt16) (word : UInt32) : Prop :=
  ∃ i < 32, word.toNat.testBit i = true ∧ offered.toNat.testBit i = false

instance (offered : UInt16) (word : UInt32) : Decidable (Unoffered offered word) :=
  inferInstanceAs (Decidable (∃ i < 32, word.toNat.testBit i = true ∧
    offered.toNat.testBit i = false))

/-- Flags are negotiated as they should be, in the handshake with a client that says `word`. -/
structure FlagsNegotiated (offered : UInt16) (word : UInt32) (client : NbdClient)
    (o : Outcome (ℤ × NbdClient)) (s' : Shared) (h : List Ev) : Prop where
  /-- A client is refused if it sets a flag that was not offered. -/
  refused : ClientRefused client o h ↔ Unoffered offered word
  /-- An export that is selected is answered with. -/
  answered : ∀ c', o = .ret (0, c') → s'.ctx.state = .transmission →
    ∃ sock buf flags, ∃ k : Sent buf.length, ⟨.send sock .handshakeFinish buf flags, k⟩ ∈ h
  /-- The reply has its zeroes unless the client asks for none. -/
  reply : ∀ sock buf flags (k : Sent buf.length), ⟨.send sock .handshakeFinish buf flags, k⟩ ∈ h →
    (word &&& NBD_FLAG_NO_ZEROES ≠ 0 → buf.length = 10) ∧
    (word &&& NBD_FLAG_NO_ZEROES = 0 → buf.length = 134 ∧ buf.drop 10 = List.replicate 124 0)

/-- The last of an export reply with zeroes are zeroes. -/
theorem exportReply_zeroes {ctx : ContextNbd} (h : word &&& NBD_FLAG_NO_ZEROES = 0) :
    (exportReply ctx word).length = 134 ∧
    (exportReply ctx word).drop 10 = List.replicate 124 0 := by
  have hlen : exportReplyLen word = 134 := if_neg (not_not.mpr h)
  refine ⟨by rw [length_exportReply, hlen], ?_⟩
  rw [exportReply, hlen, List.take_of_length_le (by rw [length_exportNameOptionReply]),
    exportNameOptionReply,
    List.drop_left' (by simp)]

/-- A handshake that leaves an export selected has answered with it. -/
theorem Negotiated.answered {o : Outcome (ℤ × NbdClient)} {s' : Shared}
    {h : List Ev} {c' : NbdClient} (hn : Negotiated s client o s' h) (ho : o = .ret (0, c'))
    (hs : s'.ctx.state = .transmission) :
    ∃ sock buf flags, ∃ k : Sent buf.length, ⟨.send sock .handshakeFinish buf flags, k⟩ ∈ h := by
  cases hn with
  | refused _ hout =>
    rcases hout with hout | ⟨e, hout⟩
    · cases hout.symm.trans ho
    · cases hout.symm.trans ho
  | aborted => cases hs
  | lost => cases ho
  | unknown => cases ho
  | cut => cases ho
  | exported => exact ⟨_, _, _, _, List.mem_append_right _ List.mem_cons_self⟩

/-- **Client-flag negotiation.** Whatever the client's word, flags are negotiated as they should be
if and only if the word is the set that was offered, or has a flag that was not. -/
theorem flag_negotiation_iff (env : Env Call Resp σ) (cfg : Config) (fuel : ℕ)
    (client : NbdClient) (s : Shared) (w : σ) (word : UInt32) (hg : s.ctx.gflags.toNat < 2 ^ 16)
    (h : ClientSays env client s w word) :
    let z := (protocolHandshake cfg fuel client).run env s w
    FlagsNegotiated s.ctx.gflags.toUInt16 word client z.out z.mem z.trace ↔
      word = s.ctx.gflags ∨ Unoffered s.ctx.gflags.toUInt16 word := by
  intro z
  obtain ⟨hrefused, hgreets⟩ : wp env (protocolHandshake cfg fuel client) _ s w := handshake_says h
  have hneg : Negotiated s client z.out z.mem z.trace := handshake_negotiated
  have hoffered : s.ctx.gflags.toUInt16.toNat = s.ctx.gflags.toNat := by
    rw [UInt32.toNat_toUInt16, Nat.mod_eq_of_lt hg]
  constructor
  · intro hn
    by_cases he : word = s.ctx.gflags
    · exact .inl he
    · exact .inr (hn.refused.mp (hrefused.mpr he))
  · intro hcond
    refine ⟨?_, fun c' ho hs => hneg.answered ho hs, fun sock buf flags k hmem => ?_⟩
    · rw [hrefused]
      constructor
      · exact fun hne => hcond.resolve_left hne
      · rintro ⟨i, -, hset, hclear⟩ rfl
        rw [hoffered, hset] at hclear
        cases hclear
    · by_cases he : word = s.ctx.gflags
      · obtain ⟨rfl, -⟩ := hneg.finish hmem
        rw [← he]
        refine ⟨fun hno => ?_, fun hno => exportReply_zeroes hno⟩
        rw [length_exportReply]
        exact if_pos hno
      · exact absurd (hgreets he _ (List.mem_map_of_mem hmem)) id

namespace Sample

/-- Flags are negotiated with a client that sets a flag that was not offered. -/
theorem flag_negotiation_iff_unoffered :
    let z :=
      (protocolHandshake Sample.cfg 8 newClient).run (wire quiet) Sample.mem
      (Sample.client (toBe32 4))
    FlagsNegotiated 3 4 newClient z.out z.mem z.trace :=
  (flag_negotiation_iff (wire quiet) Sample.cfg 8 newClient Sample.mem (Sample.client (toBe32 4)) 4
    (by decide) (clientSays_wire quiet newClient Sample.mem (List.append_nil _).symm)).mpr
    (.inr (by decide))

/-- **A client that leaves `NBD_FLAG_NO_ZEROES` out is refused**, all its flags having been
offered. -/
theorem zeroes_refused :
    ¬ ∀ (σ : Type) (env : Env Call Resp σ) (cfg : Config) (fuel : ℕ) (client :
      NbdClient) (s : Shared) (w : σ) (word : UInt32), s.ctx.gflags.toNat < 2 ^ 16 →
      ClientSays env client s w word →
      let z := (protocolHandshake cfg fuel client).run env s w
      FlagsNegotiated s.ctx.gflags.toUInt16 word client z.out z.mem z.trace := by
  intro h
  have hsays : ClientSays (wire quiet) newClient Sample.mem (Sample.client (toBe32 1)) 1 :=
    clientSays_wire quiet newClient Sample.mem (List.append_nil _).symm
  have hn :=
    h _ (wire quiet) Sample.cfg 8 newClient Sample.mem (Sample.client (toBe32 1)) 1 (by decide)
    hsays
  obtain ⟨hrefused, -⟩ : wp (wire quiet) (protocolHandshake Sample.cfg 8 newClient) _ Sample.mem
      _ :=
    handshake_says hsays
  exact absurd (hn.refused.mp (hrefused.mpr (by decide))) (by decide)

end Sample

end LwNBD
