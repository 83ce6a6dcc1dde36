import LwNBD.Nbd.Options
import LwNBD.Nbd.Sample

/-!
# The phases of a session

What becomes of a session that starts with the handshake. The session loop chooses the
phase by `c->state`, but the phases report where they got to in `ctx->state`, and nothing
copies the one to the other: a handshake that ends well, by an export or by an abort, is
followed by another handshake. The phases are in order if and only if the handshake does
not end well.

## The model

* `PhasesInOrder` — what is expected of the calls of a session.
* `AtOption` — the heads of the option loop that a handshake reaches; `Completes` — an
  option is read there that ends the handshake well.

## What is proved

* `handshake_zero_iff` — over the lossless transport, a handshake returns `0` if and only if
  it reaches an option that completes it.
* `session_phases` — a session ends, and its phases are in order if and only if no option
  completes its handshake.
-/

namespace LwNBD

open Resumption

/-! ### What is to be shown -/

/-- How often the handshake is entered. -/
def handshakes (h : List Ev) : ℕ := (calls h).count (.note (.enter .protocolHandshake))

/-- The phases of a session are in order. -/
structure PhasesInOrder (o : Outcome ℤ) (h : List Ev) : Prop where
  /-- The handshake is entered once. -/
  entered : handshakes h = 1
  /-- The greeting is sent once. -/
  greeted : greetings h = 1
  /-- When the handshake has returned `0` for an export, the transmission phase is entered. -/
  exported : ∀ t u, calls h = t ++ .note (.leave .protocolHandshake 0 .transmission) :: u →
    ∃ v, u = .note (.enter .transmissionPhase) :: v
  /-- When a phase has returned for an `ABORT` or a `DISC`, the session ends, and nothing more
  is read or sent. -/
  aborted : ∀ f t u, calls h = t ++ .note (.leave f 0 .abort) :: u →
    (∃ r, o = .ret r) ∧ ∀ e ∈ u, e.isSend = false ∧ e.isRecv = false

variable {σ : Type} (env : Env Call Resp σ) {cfg : Config} {fuel : ℕ} {cflags : UInt32}

/-- The first head of the option loop, after the greeting. -/
def firstOption (cfg : Config) (client : NbdClient) (s : Shared) (w : σ) : OptHead σ :=
  let g := (greet client).run env s w
  let newOpt := env g.env (.uninit 16)
  let nbdBuffer := env newOpt.2 (.uninit cfg.bufferLen)
  ⟨⟨client, newOpt.1.1, nbdBuffer.1.1⟩, g.mem, nbdBuffer.2⟩

/-- The heads of the option loop that are reached by a handshake with `client`. -/
def AtOption (cfg : Config) (client : NbdClient) (s : Shared) (w : σ) (c : OptHead σ) : Prop :=
  ∃ cflags, ((greet client).run env s w).out = .ret (some cflags) ∧
    Reaches env (serveOption cfg cflags) (fun _ => True) (firstOption env cfg client s w) c

/-- The option that is read at a head ends the handshake well: it is an `ABORT`, or it asks for
an export that is found. -/
def Completes (cfg : Config) (c : OptHead σ) : Prop :=
  ∃ y t, optionAt env cfg c = some (y, t) ∧
    (t.option = NBD_OPT_ABORT ∨ t.option = NBD_OPT_EXPORT_NAME ∧
    ∃ i, ((lookup y.c (askedName y t.optlen)).run env c.mem (readOptionAt env cfg c).env).out =
    .ret (some i))

/-- The memory when the first free slot of the context table is taken. -/
def Shared.taken (s : Shared) (h : s.reg.firstFree < MAX_CONTEXTS) : Shared :=
  { s with reg := { s.reg with status := s.reg.status.set s.reg.firstFree .created } }

variable {env} {client : NbdClient} {s : Shared} {w : σ} {c : OptHead σ}

/-! ### The option loop -/

theorem handleOption_ends {x : OptVars} {option optlen : UInt32} :
    wp env (handleOption cflags x option optlen) (fun o _ _ _ => o ≠ .halt .fuel) s w := by
  refine wp_handleOption (fun _ => ?_) (by simp) (by simp) (by simp)
  refine wp_mono env ?_ (lookup_lookedUp x.c (askedName x optlen))
  rintro ((_ | i) | e) s' w' t hl
  · exact ⟨by simp, by simp⟩
  · exact ⟨by simp, fun _ _ _ _ _ => ⟨by simp, by simp⟩⟩
  · intro he
    cases he
    exact hl.ends rfl

/-- A round that returns `0` has read an option that completes the handshake. -/
theorem completes_of_done {client' : NbdClient}
    (h : (c.round env (serveOption cfg cflags)).out = .ret (.done (0, client'))) :
    Completes env cfg c := by
  suffices wp env (serveOption cfg cflags c.x)
      (fun o _ _ _ => ∀ c', o = .ret (.done (0, c')) → Completes env cfg c)
      c.mem c.env from this _ h
  refine wp_serveOption (fun _ o w h ho _ c' hc' => ?_) (fun y t hy _ _ => ?_)
  · rcases ho with rfl | rfl <;> simp at hc'
  · refine wp_handleOption (fun ht => ?_) (fun ht k w₁ _ _ c' _ => ⟨y, t, hy, .inl ht⟩) (by simp)
      (by simp)
    rcases ho : ((lookup y.c (askedName y t.optlen)).run env c.mem
      (readOptionAt env cfg c).env).out with (_ | i) | e
    · unfold wp
      rw [ho]
      exact ⟨by simp, by simp⟩
    · unfold wp
      rw [ho]
      exact ⟨by simp, fun _ _ _ _ _ => ⟨by simp, fun _ _ _ => ⟨y, t, hy, .inr ⟨ht, i, ho⟩⟩⟩⟩
    · unfold wp
      rw [ho]
      simp [Post.thenExport]

/-- A handshake that reads no option completes by none. -/
theorem not_completes_of_none (h : optionAt env cfg (firstOption env cfg client s w) = none)
    (hc : AtOption env cfg client s w c) : ¬ Completes env cfg c := by
  obtain ⟨cflags, -, hc⟩ := hc
  rcases hc.cases_head with rfl | ⟨c₁, ⟨-, hr⟩, -⟩
  · rintro ⟨y, t, ho, -⟩
    rw [h] at ho
    cases ho
  · have hround : wp env (serveOption cfg cflags (firstOption env cfg client s w).x)
        (fun o _ _ _ => ∀ x, o ≠ .ret (.next x)) (firstOption env cfg client s w).mem
        (firstOption env cfg client s w).env := by
      refine wp_serveOption (fun _ o _ _ ho _ => ?_) (by simp [h])
      rcases ho with rfl | rfl <;> simp
    exact absurd hr.1 (hround _)

/-- After the greeting, the handshake is its option loop. -/
theorem handshake_loop (hg : ((greet client).run env s w).out = .ret (some cflags)) :
    let x := (protocolHandshake cfg fuel client).run env s w
    let y := (Prog.loop fuel (serveOption cfg cflags) (firstOption env cfg client s w).x).run env
      (firstOption env cfg client s w).mem (firstOption env cfg client s w).env
    x.out = y.out ∧ x.mem = y.mem ∧ x.env = y.env := by
  rw [protocolHandshake, Prog.run_bind, Result.andThen, hg]
  exact ⟨rfl, rfl, rfl⟩

theorem handshake_out (hg : ((greet client).run env s w).out = .ret (some cflags)) :
    ((protocolHandshake cfg fuel client).run env s w).out =
      ((Prog.loop fuel (serveOption cfg cflags) (firstOption env cfg client s w).x).run env
        (firstOption env cfg client s w).mem (firstOption env cfg client s w).env).out :=
  (handshake_loop hg).1

/-- A handshake keeps the client's socket and its phase. -/
theorem Negotiated.keeps {o : Outcome (ℤ × NbdClient)} {s' : Shared} {h : List Ev} {r : ℤ}
    {client' : NbdClient} (hn : Negotiated s client o s' h) (ho : o = .ret (r, client')) :
    client'.sock = client.sock ∧ client'.state = client.state := by
  cases hn with
  | refused _ h =>
    rcases h with rfl | ⟨e, rfl⟩
    · cases ho; exact ⟨rfl, rfl⟩
    · cases ho
  | lost => cases ho
  | aborted | unknown | cut | exported => cases ho; exact ⟨rfl, rfl⟩

/-! ### Over the lossless transport -/

section Wire

variable {β : Type} {host : Env Call Resp β} {w : Wire β} {c : OptHead (Wire β)}

theorem optionAt_input_lt {o : OptVars × NbdNewOption} (ho : optionAt (wire host) cfg c = some o) :
    (readOptionAt (wire host) cfg c).env.input.length < c.env.input.length := by
  suffices wp (wire host) (readOption cfg c.x)
      (fun o _ w' _ => ∀ y, o = .ret (some y) → w'.input.length < c.env.input.length) c.mem c.env by
    refine this o ?_
    unfold optionAt readOptionAt at ho
    split at ho
    case h_1 hret => rw [hret, ho]
    case h_2 => cases ho
  rw [readOption, wp_bind]
  refine wp_readNewOption (by simp) (fun r w₁ hr hsize _ => ?_)
  have hin : 16 ≤ c.env.input.length := by
    rw [wire_recv] at hr
    cases hr
    exact le_of_recv (by decide) hsize
  obtain ⟨-, -, rfl⟩ := wire_recv_eq hr hin
  rw [Post.seq_ret]
  refine fun y _ => Nat.lt_of_le_of_lt (wire_input_le host _ _ _) ?_
  dsimp only
  rw [List.length_drop]
  omega

/-- A round of the option loop ends, and leaves less of the stream if the loop goes round again. -/
theorem serveOption_wire :
    wp (wire host) (serveOption cfg cflags c.x) (fun o _ w' _ => o ≠ .halt .fuel ∧
      ∀ x', o = .ret (.next x') → w'.input.length < c.env.input.length) c.mem c.env := by
  refine wp_serveOption (fun _ o w h ho _ => ?_) (fun y t hy _ _ => ?_)
  · rcases ho with rfl | rfl <;> simp
  · have hlt := optionAt_input_lt hy
    refine ⟨handleOption_ends, fun x' _ => Nat.lt_of_le_of_lt (wire_input_le host _ _ _) hlt⟩

theorem optionLoop_ends (hfuel : c.env.input.length < fuel) :
    ((Prog.loop fuel (serveOption cfg cflags) c.x).run (wire host) c.mem c.env).out ≠
    .halt .fuel := by
  refine wp_loop_total (wire host) (Q := fun o _ _ _ => o ≠ .halt .fuel) (fun _ _ _ _ => True)
    (fun _ _ w => w.input.length) (fun x s w h _ => ?_) fuel c.x c.mem c.env [] hfuel trivial
  refine wp_mono _ ?_ (serveOption_wire (c := ⟨x, s, w⟩))
  rintro ((x' | r) | e) s' w' h' ⟨hne, hlt⟩
  · exact ⟨trivial, hlt x' rfl⟩
  · simp
  · simpa using hne

/-- An option that completes the handshake is answered. -/
theorem done_of_completes (h : Completes (wire host) cfg c) :
    ∃ client', (c.round (wire host) (serveOption cfg cflags)).out = .ret (.done (0, client')) := by
  obtain ⟨y, t, hy, ht⟩ := h
  suffices wp (wire host) (serveOption cfg cflags c.x)
      (fun o _ _ _ => ∃ c', o = .ret (.done (0, c'))) c.mem c.env
    from this
  refine wp_serveOption (by simp [hy]) (fun y' t' hy' _ _ => ?_)
  cases hy.symm.trans hy'
  rcases ht with ht | ⟨ht, i, hi⟩
  · rw [ht]
    change wp (wire host) (optAbort y NBD_OPT_ABORT) _ _ _
    refine wp_optAbort (fun k w₁ hk hlt => ?_) (fun _ _ _ _ => ⟨_, rfl⟩)
    rw [(wire_send_eq hk).1] at hlt
    exact absurd hlt (by decide)
  · rw [ht]
    change wp (wire host) (optExportName cflags y t.optlen) _ _ _
    refine wp_optExportName ?_
    unfold wp
    rw [hi]
    refine ⟨by simp, fun j _ k w₁ hk => ⟨fun hlt => ?_, fun _ => ⟨_, rfl⟩⟩⟩
    rw [(wire_send_eq hk).1, length_exportReply] at hlt
    rcases exportReplyLen_cases cflags with h | h <;> rw [h] at hlt <;> exact absurd hlt (by decide)

/-- The greeting leaves less of the stream, if the client is not refused. -/
theorem greet_input_lt (hg : ((greet client).run (wire host) s w).out = .ret (some cflags)) :
    ((greet client).run (wire host) s w).env.input.length < w.input.length := by
  suffices wp (wire host) (greet client)
      (fun o _ w' _ => ∀ f, o = .ret (some f) → w'.input.length < w.input.length) s w from this _ hg
  simp only [greet, wp_bind, wp_perform, wp_ctxNow, wp_syncSend, Post.seq_ret]
  split
  · simp
  rw [wp_bind, wp_syncRecv, Post.seq_ret]
  split
  · simp
  case isFalse hsize =>
    refine fun f _ => Nat.lt_of_le_of_lt (wire_input_le host _ _ _) ?_
    have hin := le_of_recv (by decide) (Nat.le_of_not_lt hsize)
    rw [wire_recv, recv_data_of_le _ hin]
    rw [wire_send, wire_host _ _ rfl rfl] at hin ⊢
    dsimp only at hin ⊢
    rw [List.length_drop, List.length_take]
    omega

theorem firstOption_input : (firstOption (wire host) cfg client s w).env.input =
    ((greet client).run (wire host) s w).env.input := by
  rw [firstOption, wire_host _ _ rfl rfl, wire_host _ _ rfl rfl]

variable (cfg) (client) (s) (host) in
theorem handshake_ends (hfuel : w.input.length < fuel) :
    ((protocolHandshake cfg fuel client).run (wire host) s w).out ≠ .halt .fuel := by
  obtain ⟨-, -, -, hg | hg⟩ : wp (wire host) (greet client) _ s w := greet_greets
  · rw [protocolHandshake, Prog.run_bind, Result.andThen, hg]
    simp
  · rw [handshake_out hg]
    refine optionLoop_ends ?_
    rw [firstOption_input]
    exact Nat.lt_trans (greet_input_lt hg) hfuel

variable (cfg) (client) (s) (host) in
/-- A handshake returns `0` if and only if it reaches an option that completes it. -/
theorem handshake_zero_iff (hfuel : w.input.length < fuel) :
    (∃ client', ((protocolHandshake cfg fuel client).run (wire host) s w).out = .ret (0, client')) ↔
      ∃ c, AtOption (wire host) cfg client s w c ∧ Completes (wire host) cfg c := by
  have hends := handshake_ends cfg client s host hfuel
  obtain ⟨-, -, -, hg | hg⟩ : wp (wire host) (greet client) _ s w := greet_greets
  · refine ⟨?_, ?_⟩
    · rintro ⟨client', h⟩
      rw [protocolHandshake, Prog.run_bind, Result.andThen, hg] at h
      cases h
    · rintro ⟨c, ⟨cflags, hg', -⟩, -⟩
      cases hg.symm.trans hg'
  · rw [handshake_out hg] at hends ⊢
    refine ⟨?_, ?_⟩
    · rintro ⟨client', h⟩
      obtain ⟨c, hc, hdone⟩ := reaches_of_loop _ h
      exact ⟨c, ⟨_, hg, hc⟩, completes_of_done hdone⟩
    · rintro ⟨c, ⟨cflags, hg', hc⟩, hcomp⟩
      cases hg.symm.trans hg'
      obtain ⟨client', hdone⟩ := done_of_completes hcomp
      exact ⟨client', (loop_of_reaches _ hc hdone _ hends).1⟩

/-- A handshake that returns `0` leaves less of the stream. -/
theorem handshake_input_lt {client' : NbdClient}
    (h : ((protocolHandshake cfg fuel client).run (wire host) s w).out = .ret (0, client')) :
    ((protocolHandshake cfg fuel client).run (wire host) s w).env.input.length <
    w.input.length := by
  obtain ⟨-, -, -, hg | hg⟩ : wp (wire host) (greet client) _ s w := greet_greets
  · rw [protocolHandshake, Prog.run_bind, Result.andThen, hg] at h
    cases h
  · rw [protocolHandshake, Prog.run_bind, Result.andThen, hg]
    exact Nat.lt_of_le_of_lt (wire_input_le host _ _ _) (greet_input_lt hg)

end Wire

/-! ### The session loop -/

section Loop

variable {client : NbdClient}

/-- An entry to a phase, or a return from one. -/
def Call.isPhase : Call → Bool
  | .note (.enter .protocolHandshake) | .note (.enter .transmissionPhase) | .note (.leave ..) =>
    true
  | _ => false

@[simp] theorem handshakes_append (h h' : List Ev) :
    handshakes (h ++ h') = handshakes h + handshakes h' := by
  simp [handshakes]

/-- The client is greeted once, and no phase is entered or left. -/
structure GreetsOnce (h : List Ev) : Prop where
  /-- One greeting is sent. -/
  greeted : greetings h = 1
  /-- No phase is entered or left. -/
  phase : ∀ e ∈ calls h, e.isPhase = false

theorem GreetsOnce.append {h t : List Ev} (hh : GreetsOnce h)
    (ht : ∀ e ∈ calls t, e.isPhase = false ∧ e.isGreeting = false) : GreetsOnce (h ++ t) where
  greeted := by rw [greetings_append, hh.greeted, greetings_eq_zero fun e he => (ht e he).2]
  phase := calls_forall_append hh.phase fun e he => (ht e he).1

theorem Haggled.greetsOnce {h : List Ev} (hh : Haggled s client.sock h) : GreetsOnce h where
  greeted := hh.greeted
  phase := by
    intro e he
    rcases hh.calls e he with he | he | he
    · unfold Greets at he; split at he <;> first | rfl | exact he.elim
    · unfold ReadsOption at he; split at he <;> first | rfl | exact he.elim
    · unfold Answers at he; split at he <;> first | rfl | exact he.elim

theorem LooksUp.not_phase {uri : Option Bytes} {e : Call} (h : LooksUp uri e) :
    e.isPhase = false ∧ e.isGreeting = false := by
  unfold LooksUp at h
  split at h <;> first | exact ⟨rfl, rfl⟩ | exact h.elim

/-- A handshake greets the client once, and neither enters nor leaves a phase. -/
theorem Negotiated.greetsOnce {o : Outcome (ℤ × NbdClient)} {s' : Shared} {h : List Ev}
    (hn : Negotiated s client o s' h) : GreetsOnce h := by
  cases hn with
  | refused hh => exact hh.greetsOnce
  | aborted hh => exact hh.greetsOnce.append (by simp [Call.isPhase, Call.isGreeting])
  | lost hh hl | unknown hh hl => exact hh.greetsOnce.append fun e he => (hl.calls e he).not_phase
  | cut hh hl | exported hh hl =>
    exact (hh.greetsOnce.append fun e he => (hl.calls e he).not_phase).append
      (by simp [Call.isPhase, Call.isGreeting])

/-- A session that goes through one handshake, which does not return `0`, is in order. -/
theorem GreetsOnce.inOrder {h t : List Ev} (hh : GreetsOnce h)
    (ht : ∀ e ∈ calls t, ∃ r st, e = .note (.leave .protocolHandshake r st) ∧ r ≠ 0)
    (o : Outcome ℤ) : PhasesInOrder o (⟨.note (.enter .protocolHandshake), ()⟩ :: h ++ t) := by
  have hleave : ∀ f st, Call.note (.leave f 0 st) ∉
      calls ((⟨.note (.enter .protocolHandshake), ()⟩ : Ev) :: h ++ t) := by
    intro f st hmem
    rw [calls_append, calls_cons] at hmem
    rcases List.mem_append.mp hmem with hmem | hmem
    · rcases List.mem_cons.mp hmem with hmem | hmem
      · cases hmem
      · cases hh.phase _ hmem
    · obtain ⟨r, st', heq, hr⟩ := ht _ hmem
      cases heq
      exact hr rfl
  refine ⟨?_, ?_, fun u v huv => ?_, fun f u v huv => ?_⟩
  · have hh₀ : (calls h).count (.note (.enter .protocolHandshake)) = 0 :=
      List.count_eq_zero.mpr fun hmem => nomatch hh.phase _ hmem
    have ht₀ : (calls t).count (.note (.enter .protocolHandshake)) = 0 :=
      List.count_eq_zero.mpr fun hmem => by
        obtain ⟨r, st, heq, -⟩ := ht _ hmem
        cases heq
    rw [handshakes, calls_append, calls_cons, List.count_append, List.count_cons_self, hh₀, ht₀]
  · have ht₀ : greetings t = 0 := greetings_eq_zero fun e he => by
      obtain ⟨r, st, rfl, -⟩ := ht e he
      rfl
    rw [greetings_append, ht₀]
    exact hh.greeted
  · exact absurd (huv ▸ List.mem_append_right _ (.head _)) (hleave _ _)
  · exact absurd (huv ▸ List.mem_append_right _ (.head _)) (hleave f _)

/-- The handshake is entered and left; what its result leads to. -/
def Post.leaveHandshake (env : Env Call Resp σ) (Q : Post Shared Call Resp σ (Ctl NbdClient ℤ)) :
    Post Shared Call Resp σ (ℤ × NbdClient) :=
  Q.seq fun rc h s w => Q (.ret (if rc.1 = 0 then .next rc.2 else .done rc.1)) s
    (env w (.note (.leave .protocolHandshake rc.1 s.ctx.state))).2
    (h ++ [⟨.note (.leave .protocolHandshake rc.1 s.ctx.state), ()⟩])

/-- A round of the session loop, in the handshake. -/
theorem wp_sessionRound {Q : Post Shared Call Resp σ (Ctl NbdClient ℤ)}
    (hc : client.state = .handshake) (h : wp env (protocolHandshake cfg fuel client)
      (Post.leaveHandshake env (Q.after [⟨.note (.enter .protocolHandshake), ()⟩])) s
      (env w (.note (.enter .protocolHandshake))).2) :
    wp env (sessionRound cfg fuel client) Q s w := by
  rw [sessionRound, hc]
  simp only [wp_bind, wp_note, Post.seq_ret]
  refine wp_mono env ?_ h
  rintro (⟨r, client'⟩ | e) s' w' h' hQ
  · simp only [Post.leaveHandshake, Post.seq_ret, wp_ctxNow, wp_pure, Post.after_after] at hQ ⊢
    split_ifs with hr <;> simpa [hr] using hQ
  · exact hQ

/-- A session whose handshake does not return `0` is in order. -/
theorem phases_of_refused (hc : client.state = .handshake)
    (hne : ∀ c', ((protocolHandshake cfg fuel client).run env s
      (env w (.note (.enter .protocolHandshake))).2).out ≠
      .ret (0, c')) (n : ℕ) :
    wp env (Prog.loop (n + 1) (sessionRound cfg fuel) client) (fun o _ _ h => PhasesInOrder o h)
    s w := by
  rw [wp_loop_succ]
  refine wp_sessionRound hc ?_
  have hno : wp env (protocolHandshake cfg fuel client) (fun o _ _ _ => ∀ c', o ≠ .ret (0, c')) s
      (env w (.note (.enter .protocolHandshake))).2 := hne
  refine wp_mono env ?_ (wp_and handshake_negotiated hno)
  rintro (⟨r, client'⟩ | e) s' w' h ⟨hn, ho⟩
  · have hr : r ≠ 0 := fun hr => ho client' (by rw [hr])
    rw [Post.leaveHandshake, Post.seq_ret, if_neg hr]
    exact hn.greetsOnce.inOrder (t := [⟨.note (.leave .protocolHandshake r _), ()⟩])
      (by simpa using hr) _
  · rw [Post.leaveHandshake, Post.seq_halt]
    simpa using hn.greetsOnce.inOrder (t := []) (by simp) (.halt e)

/-- A session whose handshake returns `0` goes through another. -/
theorem handshakes_of_zero {client' : NbdClient} (hc : client.state = .handshake)
    (h0 : ((protocolHandshake cfg fuel client).run env s
      (env w (.note (.enter .protocolHandshake))).2).out =
      .ret (0, client')) (n : ℕ) :
    wp env (Prog.loop (n + 2) (sessionRound cfg fuel) client) (fun _ _ _ h => 2 ≤ handshakes h)
    s w := by
  rw [wp_loop_succ]
  refine wp_sessionRound hc ?_
  have hzero : wp env (protocolHandshake cfg fuel client) (fun o _ _ _ => o = .ret (0, client')) s
      (env w (.note (.enter .protocolHandshake))).2 := h0
  refine wp_mono env ?_ (wp_and handshake_negotiated hzero)
  rintro o s' w' h ⟨hn, rfl⟩
  obtain ⟨-, hstate⟩ := hn.keeps rfl
  rw [Post.leaveHandshake, Post.seq_ret, if_pos rfl, Post.after_apply, Post.round_next]
  refine wp_loop_first env (wp_sessionRound (hstate.trans hc) ?_)
  -- what was done before has entered it once, and so does what comes
  have hcount : ∀ t : List Ev, 2 ≤ handshakes ([⟨.note (.enter .protocolHandshake), ()⟩] ++ h ++
      [⟨.note (.leave .protocolHandshake 0 s'.ctx.state), ()⟩] ++
      [⟨.note (.enter .protocolHandshake), ()⟩] ++ t) := by
    intro t
    have hone : handshakes [⟨.note (.enter .protocolHandshake), ()⟩] = 1 := by decide
    rw [handshakes_append, handshakes_append, handshakes_append, handshakes_append, hone]
    omega
  refine wp_of_forall env ?_
  rintro (rc | e) s'' w'' t
  · intro _ _ _ u
    simpa using hcount (t ++ ⟨.note (.leave .protocolHandshake rc.1 s''.ctx.state), ()⟩ :: u)
  · intro _ _ _ u
    simpa using hcount (t ++ u)

/-! ### The session -/

/-- A session that finds no free slot ends at once. -/
theorem run_thread_full {sock : ℤ} (hpre : s.ctx.preinit = 0)
    (h : ¬ s.reg.firstFree < MAX_CONTEXTS) :
    (nbdSynchronousClientThreadCb cfg fuel sock).run env s w = ⟨.ret (-1), s, w, []⟩ := by
  simp [nbdSynchronousClientThreadCb, clientInit, lwnbdNewContext, ctxNow, Prog.run_bind,
    Result.andThen, hpre, h]

/-- A session takes a slot, and starts with the handshake. -/
theorem run_thread {sock : ℤ} (hpre : s.ctx.preinit = 0) (h : s.reg.firstFree < MAX_CONTEXTS) :
    (nbdSynchronousClientThreadCb cfg fuel sock).run env s w =
      (Prog.loop fuel (sessionRound cfg fuel) ⟨sock, .handshake, some ⟨_, h⟩⟩).run
      env (s.taken h) w := by
  simp [nbdSynchronousClientThreadCb, clientInit, lwnbdNewContext, ctxNow, Prog.run_bind,
    Result.andThen, hpre, h, Shared.taken]

/-- A session in the handshake ends when the client's stream does. -/
theorem session_ends {β : Type} {host : Env Call Resp β} {w : Wire β}
    (hc : client.state = .handshake) (hfuel : w.input.length < fuel) :
    ((Prog.loop fuel (sessionRound cfg fuel) client).run (wire host) s w).out ≠ .halt .fuel := by
  refine wp_loop_total (wire host) (Q := fun o _ _ _ => o ≠ .halt .fuel)
    (fun c _ w' _ => c.state = .handshake ∧ w'.input.length < fuel) (fun _ _ w' => w'.input.length)
    ?_ fuel client s w [] hfuel ⟨hc, hfuel⟩
  rintro c s' w' h ⟨hc, hlt⟩
  refine wp_sessionRound hc ?_
  have hends : wp (wire host) (protocolHandshake cfg fuel c) (fun o _ _ _ => o ≠ .halt .fuel) s'
      (wire host w' (.note (.enter .protocolHandshake))).2 := handshake_ends cfg c s' host hlt
  have hless : wp (wire host) (protocolHandshake cfg fuel c)
      (fun o _ w'' _ => ∀ c', o = .ret (0, c') → w''.input.length < w'.input.length) s'
      (wire host w' (.note (.enter .protocolHandshake))).2 := fun c' h => handshake_input_lt h
  refine wp_mono _ ?_ (wp_and (wp_and handshake_negotiated hends) hless)
  rintro (⟨r, c'⟩ | e) s'' w'' h' ⟨⟨hn, hne⟩, hless⟩
  · rw [Post.leaveHandshake, Post.seq_ret, Post.after_apply]
    by_cases hr : r = 0
    · subst hr
      have hlt' := hless c' rfl
      rw [if_pos rfl, Post.round_next]
      exact ⟨⟨(hn.keeps rfl).2.trans hc, Nat.lt_trans hlt' hlt⟩, hlt'⟩
    · rw [if_neg hr]
      simp
  · simpa [Post.leaveHandshake] using hne

end Loop

/-- **The phases of a session**, on a server without preinit and over the lossless transport: it
ends; and its phases are in order if and only if there is a free slot in the context table, and
the handshake reaches no option that completes it. -/
theorem session_phases {β : Type} (host : Env Call Resp β) (cfg : Config) (s : Shared)
    (w : Wire β) (sock : ℤ) (hpre : s.ctx.preinit = 0) :
    ∃ N, ∀ fuel ≥ N, let z := (nbdSynchronousClientThreadCb cfg fuel sock).run (wire host) s w
      z.out ≠ .halt .fuel ∧ (PhasesInOrder z.out z.trace ↔ ∃ h : s.reg.firstFree < MAX_CONTEXTS,
        ∀ c, AtOption (wire host) cfg ⟨sock, .handshake, some ⟨_, h⟩⟩ (s.taken h)
          (wire host w (.note (.enter .protocolHandshake))).2 c →
          ¬ Completes (wire host) cfg c) := by
  refine ⟨w.input.length + 2, fun fuel hfuel => ?_⟩
  obtain ⟨n, rfl⟩ : ∃ n, fuel = n + 2 := ⟨fuel - 2, by omega⟩
  by_cases hfree : s.reg.firstFree < MAX_CONTEXTS
  · rw [run_thread hpre hfree]
    refine ⟨session_ends rfl (by omega), ?_⟩
    have hlt : (wire host w (.note (.enter .protocolHandshake))).2.input.length < n + 2 :=
      Nat.lt_of_lt_of_le (Nat.lt_add_of_pos_right (by decide)) hfuel
    have hzero :=
      handshake_zero_iff cfg ⟨sock, .handshake, some ⟨_, hfree⟩⟩ (s.taken hfree) host hlt
    constructor
    · intro hp
      refine ⟨hfree, fun c hc hcomp => ?_⟩
      obtain ⟨client', h0⟩ := hzero.mpr ⟨c, hc, hcomp⟩
      have htwo := handshakes_of_zero rfl h0 n
      have hone := hp.entered
      unfold wp at htwo
      omega
    · rintro ⟨_, hcond⟩
      refine phases_of_refused rfl (fun c' h0 => ?_) (n + 1)
      obtain ⟨c, hc, hcomp⟩ := hzero.mp ⟨c', h0⟩
      exact hcond c hc hcomp
  · rw [run_thread_full hpre hfree]
    refine ⟨by simp, fun hp => ?_, fun ⟨h, _⟩ => absurd h hfree⟩
    exact absurd hp.entered (by simp [handshakes])

namespace Sample

/-- A client that leaves after its flags. -/
def leaver : Wire Unit := Sample.client (toBe32 3)

/-- A client that aborts the handshake. -/
def aborter : Wire Unit := Sample.client (toBe32 3 ++ option NBD_OPT_ABORT 0)

theorem mem_free : mem.reg.firstFree < MAX_CONTEXTS := by decide +kernel

/-- The session of a client that leaves is in order. -/
theorem session_phases_leaver : ∃ N, ∀ fuel ≥ N,
    let z := (nbdSynchronousClientThreadCb Sample.cfg fuel 5).run (wire quiet) mem leaver
    PhasesInOrder z.out z.trace := by
  have hnone : optionAt (wire quiet) Sample.cfg (firstOption (wire quiet) Sample.cfg
      ⟨5, .handshake, some ⟨_, mem_free⟩⟩ (mem.taken mem_free)
      (wire quiet leaver (.note (.enter .protocolHandshake))).2) = none := by decide +kernel
  obtain ⟨N, hN⟩ := session_phases quiet Sample.cfg mem leaver 5 rfl
  exact ⟨N, fun fuel hfuel => (hN fuel hfuel).2.mpr ⟨mem_free,
    fun _ => not_completes_of_none hnone⟩⟩

/-- **A client that aborts is greeted again.** -/
theorem aborter_greeted_twice :
    ¬ ∀ (β : Type) (host : Env Call Resp β) (cfg : Config) (s : Shared) (w : Wire β) (sock : ℤ),
    s.ctx.preinit = 0 →
      ∀ fuel, let z := (nbdSynchronousClientThreadCb cfg fuel sock).run (wire host) s w
        z.out ≠ .halt .fuel → PhasesInOrder z.out z.trace := by
  intro h
  have hp := h Unit quiet Sample.cfg mem aborter 5 rfl 3 (by decide +kernel)
  exact absurd hp.greeted (by decide +kernel)

end Sample

end LwNBD
