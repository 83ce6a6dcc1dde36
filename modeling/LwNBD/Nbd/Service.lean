import LwNBD.Nbd.BlockDevice
import LwNBD.Nbd.Filled

/-!
# Sessions that start with the transmission phase

With `preinit` a session has no handshake: it serves the default export at once. A DISC ends
`transmission_phase`, which returns `0`, and the session loop then goes round again, in the phase it
was in. So a DISC does not end the session: what a client sends after it is served as well. The
session ends with its stream.

What it is to serve a message depends on the plugin: a disk answers with its bytes, and what is
written to a loudspeaker is played. A session is the same for all: if a round serves a message, then
a session serves them one after the other.

## The model

* `Msg.isDisc`, `served` — the messages that are answered are those that are no DISC.
* `Shared.told` — the record after the messages: a DISC leaves `ABORT` in it.
* `Offer` — what a plugin offers: what it makes of a message, and what clients may send.
* `Offer.Run` — messages that are served one after the other.
* `Offer.Kept` — a round of the server keeps the offer.
* `Offer.Serves` — some messages were served, and others are to be.

## What is proved

* `Offer.Kept.transmission` — the transmission phase serves the messages up to a DISC, or up to the
  end.
* `Offer.Kept.session` — a session serves them all.
-/

namespace LwNBD

open Resumption

/-! ### Messages -/

/-- The client asks for the end. -/
def Msg.isDisc (m : Msg) : Bool := m.request.type = NBD_CMD_DISC

/-- The messages that are answered. -/
def served (ms : List Msg) : List Msg := ms.filter fun m => !m.isDisc

/-- The record after the messages. -/
def Shared.told (s : Shared) : List Msg → Shared
  | [] => s
  | m :: ms =>
    Shared.told (if m.isDisc then { s with ctx := { s.ctx with state := .abort } } else s) ms

theorem served_append (ms ms' : List Msg) : served (ms ++ ms') = served ms ++ served ms' :=
  List.filter_append ..

theorem served_of_disc {m : Msg} (h : m.isDisc = true) : served [m] = [] := by
  simp [served, h]

theorem served_of_not {m : Msg} (h : m.isDisc = false) : served [m] = [m] := by
  simp [served, h]

theorem Shared.told_append (s : Shared) (ms ms' : List Msg) :
    s.told (ms ++ ms') = (s.told ms).told ms' := by
  induction ms generalizing s with
  | nil => rfl
  | cons m ms ih => exact ih _

/-- Messages leave the record as it was, but for the phase. -/
theorem Shared.told_ctx (s : Shared) (ms : List Msg) :
    (s.told ms).ctx = { s.ctx with state := (s.told ms).ctx.state } := by
  induction ms generalizing s with
  | nil => rfl
  | cons m ms ih =>
    rw [Shared.told, ih]
    split_ifs <;> rfl

/-! ### What is offered -/

/-- What a plugin offers, seen as a `δ`. -/
structure Offer (β δ : Type) where
  /-- The plugin, as its clients see it. -/
  view : β → δ
  /-- What is made of a message: what is answered, and what becomes of the plugin. -/
  serves : Msg → δ → Bytes → δ → Prop
  /-- What clients may send. -/
  legal : Msg → Prop
  /-- What holds of the plugin, with these messages to come. -/
  inv : List Msg → δ → Prop

variable {β δ : Type} {x : Offer β δ}

namespace Offer

variable (x) in
/-- Messages that are served one after the other. -/
inductive Run : δ → List Msg → Bytes → δ → Prop where
  /-- None. -/
  | nil (d : δ) : Run d [] [] d
  /-- One, and then the others. -/
  | cons {d d' d'' : δ} {m : Msg} {ms : List Msg} {a as : Bytes} : x.serves m d a d' →
      Run d' ms as d'' →
    Run d (m :: ms) (a ++ as) d''

theorem Run.append {d d' d'' : δ} {ms ms' : List Msg} {a a' : Bytes} (h : x.Run d ms a d')
    (h' : x.Run d' ms' a' d'') : x.Run d (ms ++ ms') (a ++ a') d'' := by
  induction h with
  | nil => exact h'
  | cons hm _ ih =>
    rw [List.append_assoc]
    exact .cons hm (ih h')

theorem Run.single {d d' : δ} {m : Msg} {a : Bytes} (h : x.serves m d a d') : x.Run d [m] a d' := by
  have hrun := Run.cons h (.nil d')
  rwa [List.append_nil] at hrun

variable (x) in
/-- A round served the message `m`: it goes on, with messages `ms` to come. -/
structure Answered (m : Msg) (ms : List Msg) (out : Bytes) (d : δ) (o : Outcome (Ctl Vars ℤ))
    (w : Wire β) : Prop where
  /-- It goes on. -/
  next : ∃ z, o = .ret (.next z)
  /-- The messages to come. -/
  input : w.input = stream ms
  /-- The answer was sent. -/
  serves : ∃ a, w.output = out ++ a ∧ x.serves m d a (x.view w.host)
  /-- The plugin is in order. -/
  inv : x.inv ms (x.view w.host)

/-- The server keeps the offer with the record `ctx`. -/
structure Kept (x : Offer β δ) (host : Env Call Resp β) (cfg : Config) (ctx : ContextNbd) :
    Prop where
  /-- Blocks have bytes. -/
  pos : 1 ≤ ctx.minimumBlockSize.toNat
  /-- A block fits the buffer. -/
  fits : ctx.minimumBlockSize.toNat ≤ cfg.bufferLen
  /-- Notes are nothing to the plugin. -/
  note : ∀ b n, x.view (host b (.note n)).2 = x.view b
  /-- Nor are the server's variables. -/
  uninit : ∀ b n, x.view (host b (.uninit n)).2 = x.view b
  /-- A DISC is not served. -/
  skip : ∀ m ms d, m.isDisc = true → x.inv (m :: ms) d → x.inv ms d
  /-- A round serves a message, whatever the phase. -/
  round : ∀ (fuel : ℕ) (c : ReqHead (Wire β)) (m : Msg) (ms : List Msg),
    c.mem.ctx = { ctx with state := c.mem.ctx.state } → c.x.Ok cfg c.mem.ctx.minimumBlockSize →
    c.x.sendflag = 0 → loopFuel cfg ≤ fuel → c.env.input = stream (m :: ms) →
    m.isDisc = false → x.legal m →
    x.inv (m :: ms) (x.view c.env.host) →
    wp (wire host) (serveIn cfg fuel c.mem c.x)
      (fun o _ w' _ => x.Answered m ms c.env.output (x.view c.env.host) o w') c.mem c.env

variable {host : Env Call Resp β} {cfg : Config} {fuel : ℕ} {s s₀ : Shared} {w w₀ : Wire β}
  {ms rest : List Msg} {m : Msg} {blocksize : UInt32}

variable (x) in
/-- Some messages were served, and the others are to come. -/
structure Serves (s₀ : Shared) (w₀ : Wire β) (ms rest : List Msg) (s : Shared) (w : Wire β) :
    Prop where
  /-- The messages to come. -/
  input : w.input = stream rest
  /-- The messages before them were served. -/
  past : ∃ before a, ms = before ++ rest ∧
    x.Run (x.view w₀.host) (served before) a (x.view w.host) ∧
    w.output = w₀.output ++ a ∧ s = s₀.told before
  /-- The plugin is in order. -/
  inv : x.inv rest (x.view w.host)
  /-- The messages may be sent. -/
  legal : ∀ m ∈ rest, m.isDisc = false → x.legal m

/-- What changes neither the streams nor the plugin. -/
theorem Serves.still (h : x.Serves s₀ w₀ ms rest s w) {w' : Wire β} (hin : w'.input = w.input)
    (hout : w'.output = w.output) (hview : x.view w'.host = x.view w.host) :
    x.Serves s₀ w₀ ms rest s w' where
  input := hin.trans h.input
  past := by
    rw [hout, hview]
    exact h.past
  inv := by
    rw [hview]
    exact h.inv
  legal := h.legal

theorem Serves.step (h : x.Serves s₀ w₀ ms (m :: rest) s w) (hm : m.isDisc = false) {w' : Wire β}
    {o : Outcome (Ctl Vars ℤ)} (hserved : x.Answered m rest w.output (x.view w.host) o w') :
    x.Serves s₀ w₀ ms rest s w' where
  input := hserved.input
  past := by
    obtain ⟨before, a, hms, hrun, hout, rfl⟩ := h.past
    obtain ⟨a', hout', hserves⟩ := hserved.serves
    refine ⟨before ++ [m], a ++ a', by rw [hms, List.append_assoc]; rfl, ?_, ?_, ?_⟩
    · rw [served_append, served_of_not hm]
      exact hrun.append (.single hserves)
    · rw [hout', hout, List.append_assoc]
    · rw [Shared.told_append, Shared.told, hm]
      rfl
  inv := hserved.inv
  legal := fun m' hm' => h.legal m' (List.mem_cons_of_mem _ hm')

theorem Serves.disc (h : x.Serves s₀ w₀ ms (m :: rest) s w) (hm : m.isDisc = true)
    (hskip : ∀ m ms d, m.isDisc = true → x.inv (m :: ms) d → x.inv ms d) {w' : Wire β}
    (hin : w'.input = stream rest) (hout : w'.output = w.output)
    (hview : x.view w'.host = x.view w.host) :
    x.Serves s₀ w₀ ms rest { s with ctx := { s.ctx with state := .abort } } w' where
  input := hin
  past := by
    obtain ⟨before, a, hms, hrun, hout', rfl⟩ := h.past
    refine ⟨before ++ [m], a, by rw [hms, List.append_assoc]; rfl, ?_, hout.trans hout', ?_⟩
    · rw [served_append, served_of_disc hm, List.append_nil, hview]
      exact hrun
    · rw [Shared.told_append, Shared.told, hm]
      rfl
  inv := by
    rw [hview]
    exact hskip m rest _ hm h.inv
  legal := fun m' hm' => h.legal m' (List.mem_cons_of_mem _ hm')

theorem Serves.record (h : x.Serves s₀ w₀ ms rest s w) :
    s.ctx = { s₀.ctx with state := s.ctx.state } := by
  obtain ⟨before, -, -, -, -, rfl⟩ := h.past
  exact s₀.told_ctx before

theorem Serves.all (h : x.Serves s₀ w₀ ms [] s w) :
    w.input = [] ∧ s = s₀.told ms ∧ x.inv [] (x.view w.host) ∧ ∃ a, w.output = w₀.output ++ a ∧
    x.Run (x.view w₀.host) (served ms) a (x.view w.host) := by
  obtain ⟨before, a, hms, hrun, hout, hs⟩ := h.past
  rw [List.append_nil] at hms
  subst hms
  exact ⟨h.input, hs, h.inv, a, hout, hrun⟩

end Offer

/-! ### The calls -/

/-- The calls of a run have something to write, if the messages have. -/
def FillsIf (blocksize : UInt32) (ms : List Msg) (t : List Ev) : Prop :=
  (∀ m ∈ ms, m.request.Filled blocksize) → ∀ e ∈ calls t, e.Fills

section Session

variable {host : Env Call Resp β} {cfg : Config} {fuel : ℕ} {s s₀ : Shared} {w w₀ : Wire β}
  {ms rest : List Msg} {m : Msg} {blocksize : UInt32} {z : Vars}

theorem FillsIf.append {t t' : List Ev} (h : FillsIf blocksize ms t)
    (h' : FillsIf blocksize ms t') : FillsIf blocksize ms (t ++ t') :=
  fun hms => calls_forall_append (h hms) (h' hms)

theorem FillsIf.note (n : Note) (r : Unit) : FillsIf blocksize ms [⟨.note n, r⟩] :=
  fun _ => by simp [Call.Fills]

variable (host fuel) in
theorem Offer.Serves.round_fills (h : x.Serves s₀ w₀ ms rest s w) (hz : z.Ok cfg blocksize)
    (h0 : z.sendflag = 0) (h1 : 1 ≤ blocksize.toNat) (h2 : blocksize.toNat ≤ cfg.bufferLen) :
    wp (wire host) (serveRequest cfg fuel blocksize z) (fun _ _ _ t => FillsIf blocksize ms t)
    s w := by
  intro hms
  refine LwNBD.round_fills (c := ⟨z, s, w⟩) h1 h2 hz h0 fun q hq => ?_
  obtain ⟨before, -, rfl, -⟩ := h.past
  have hin := h.input
  cases rest with
  | nil =>
    rw [requestAt_wire_none host (by simp [hin, stream])] at hq
    cases hq
  | cons m rest =>
    rw [stream_cons] at hin
    rw [requestAt_wire host hz.request hin m.magic] at hq
    cases hq
    exact hms m (List.mem_append_right _ List.mem_cons_self)

/-! ### The transmission phase -/

variable (x) in
/-- How the transmission phase ends: at a DISC, which was one of the `n` bytes to come, or at the
end of the stream. -/
def Offer.PhaseServed (s₀ : Shared) (w₀ : Wire β) (ms : List Msg) (n : ℕ) (o : Outcome ℤ)
    (s : Shared) (w : Wire β) : Prop :=
  o = .ret 0 ∧ (∃ rest, x.Serves s₀ w₀ ms rest s w) ∧ w.input.length < n ∨ o = .ret (-1) ∧
    x.Serves s₀ w₀ ms [] s w

theorem Offer.Kept.round_disc {ctx : ContextNbd} (hx : x.Kept host cfg ctx)
    (hz : z.Ok cfg blocksize) (h : x.Serves s₀ w₀ ms (m :: rest) s w) (hm : m.isDisc = true) :
    wp (wire host) (serveRequest cfg fuel blocksize z) (fun o s' w' _ => o = .ret (.done 0) ∧
      x.Serves s₀ w₀ ms rest s' w' ∧ w'.input.length < w.input.length) s w := by
  let c : ReqHead (Wire β) := ⟨z, s, w⟩
  have hin := h.input
  rw [stream_cons] at hin
  have hq : requestAt (wire host) c = some m.request := requestAt_wire host hz.request hin m.magic
  have htype : m.request.type = NBD_CMD_DISC := of_decide_eq_true hm
  have hpayload : m.payload = [] := by
    rw [← List.length_eq_zero_iff, m.payload_length, dataLength_other (by rw [htype]; decide)]
  have hrest : (envAt (wire host) c m.request).input = stream rest := by
    rw [envAt_wire_input (by simp [c, hin]), hin, List.drop_left' (by simp),
      hpayload, List.nil_append]
  refine wp_round_disc (c := c) hq htype ⟨rfl, h.disc hm hx.skip hrest envAt_wire_output ?_, ?_⟩
  · rw [envAt_wire_host, hx.note]
  · rw [hrest, hin, List.length_append, List.length_append, NbdRequest.length_toBytes]
    omega

variable (cfg) (w) in
/-- The first head has the client's stream before it, and the plugin as it was. -/
theorem Offer.Kept.firstHead {ctx : ContextNbd} (hx : x.Kept host cfg ctx) :
    (firstHead (wire host) cfg s w).env.input = w.input ∧
    (LwNBD.firstHead (wire host) cfg s w).env.output = w.output ∧
      x.view (LwNBD.firstHead (wire host) cfg s w).env.host = x.view w.host := by
  rw [LwNBD.firstHead, wire_host _ _ rfl rfl, wire_host _ _ rfl rfl]
  exact ⟨rfl, rfl, (hx.uninit _ _).trans (hx.uninit _ _)⟩

/-- The transmission phase serves the messages up to a DISC, or all of them. -/
theorem Offer.Kept.transmission (hx : x.Kept host cfg s₀.ctx) (h : x.Serves s₀ w₀ ms rest s w)
    (hfuel : loopFuel cfg + w.input.length < fuel) :
    wp (wire host) (transmissionPhase cfg fuel) (fun o s' w' t =>
      x.PhaseServed s₀ w₀ ms w.input.length o s' w' ∧ FillsIf s₀.ctx.minimumBlockSize ms t)
      s w := by
  have hblock : s.ctx.minimumBlockSize = s₀.ctx.minimumBlockSize := by rw [h.record]
  have hpos := hx.pos
  have hfits := hx.fits
  rw [← hblock] at hpos hfits ⊢
  obtain ⟨hin₀, hout₀, hview₀⟩ := hx.firstHead cfg w (s := s)
  refine wp_transmissionPhase ?_
  -- at a head, the messages that are left are to be served by the plugin as it is now
  refine wp_loop_total (wire host)
    (fun z s' w' t => z.Ok cfg s.ctx.minimumBlockSize ∧ z.sendflag = 0 ∧ s' = s ∧
      (∃ rest, x.Serves s₀ w₀ ms rest s w') ∧ w'.input.length ≤ w.input.length ∧
      FillsIf s.ctx.minimumBlockSize ms t)
    (fun _ _ w' => w'.input.length) ?_ fuel _ _ _ _ (by rw [hin₀]; omega)
    ⟨firstHead_ok, rfl, rfl, ⟨rest, h.still hin₀ hout₀ hview₀⟩, Nat.le_of_eq (congrArg _ hin₀),
      fun _ => by simp [Call.Fills]⟩
  rintro z s' w' t ⟨hz, h0, rfl, ⟨rest', hrest⟩, hle, hfills⟩
  have hround := hrest.round_fills host fuel hz h0 hpos hfits
  cases rest' with
  | nil =>
    have hnone : requestAt (wire host) ⟨z, s', w'⟩ = none :=
      requestAt_wire_none host (by simp [hrest.input, stream])
    refine wp_round_none (c := ⟨z, s', w'⟩) hnone ⟨.inr ⟨rfl, hrest.still ?_ rfl rfl⟩, ?_⟩
    · rw [recvAt, wire_recv]
      dsimp only
      rw [hrest.input]
      exact List.drop_nil
    · exact hfills.append fun _ => by simp [Call.Fills]
  | cons m rest' =>
    cases hm : m.isDisc with
    | true =>
      refine wp_mono _ ?_ (wp_and hround (hx.round_disc hz hrest hm))
      rintro o s'' w'' t' ⟨hfills', rfl, hnext, hlt⟩
      exact ⟨.inl ⟨rfl, ⟨rest', hnext⟩, Nat.lt_of_lt_of_le hlt hle⟩, hfills.append hfills'⟩
    | false =>
      have hserve := hx.round fuel ⟨z, s', w'⟩ m rest' h.record hz h0 (by omega) hrest.input hm
        (hrest.legal m List.mem_cons_self hm) hrest.inv
      refine wp_mono _ ?_ (wp_and hround
        (wp_and hserve (round_frame_wire fuel host (c := ⟨z, s', w'⟩) hz h0)))
      rintro o s'' w'' t' ⟨hfills', hserved, hnext⟩
      obtain ⟨z', rfl⟩ := hserved.next
      obtain ⟨rfl, hz', h0'⟩ := hnext z' rfl
      have hlt : w''.input.length < w'.input.length := by
        rw [hserved.input, hrest.input, stream_cons, List.length_append, List.length_append,
          NbdRequest.length_toBytes]
        omega
      exact ⟨⟨hz', h0', rfl, ⟨rest', hrest.step hm hserved⟩, by omega, hfills.append hfills'⟩, hlt⟩

/-! ### The session -/

/-- A session serves its messages. -/
theorem Offer.Kept.session {i : ContextIdx} {b : β} (hx : x.Kept host cfg s.ctx) (sock : ℤ)
    (hpre : s.ctx.preinit ≠ 0) (hdefault : host w.host .getDefaultexport = (some i, b))
    (hb : x.view b = x.view w.host) (hinv : x.inv ms (x.view w.host))
    (hm : ∀ m ∈ ms, m.isDisc = false → x.legal m) (hin : w.input = stream ms)
    (hfuel : loopFuel cfg + w.input.length < fuel) :
    wp (wire host) (nbdSynchronousClientThreadCb cfg fuel sock)
      (fun o s' w' t => o = .ret (-1) ∧ x.Serves s w ms [] s' w' ∧
      FillsIf s.ctx.minimumBlockSize ms t) s w := by
  have hstart : x.Serves s w ms ms s { w with host := b } :=
    ⟨hin, ⟨[], [], rfl, by rw [hb]; exact .nil _, (List.append_nil _).symm, rfl⟩, by
      rw [hb]; exact hinv, hm⟩
  have hinit : (clientInit sock).run (wire host) s w =
      ⟨.ret (some ⟨sock, .transmission, some i⟩), s, { w with host := b },
      [⟨.getDefaultexport, some i⟩]⟩ := by
    simp [clientInit, ctxNow, Prog.run_bind, Result.andThen, hpre,
      wire_host host w (e := .getDefaultexport) rfl rfl, hdefault]
  unfold nbdSynchronousClientThreadCb
  rw [wp_bind, wp, hinit, Post.seq_ret]
  -- each round of the session loop but the last reads a DISC
  refine wp_loop_total (wire host)
    (fun c s' w' t => c.state = .transmission ∧ (∃ rest, x.Serves s w ms rest s' w') ∧
      w'.input.length ≤ w.input.length ∧ FillsIf s.ctx.minimumBlockSize ms t)
    (fun _ _ w' => w'.input.length) ?_ fuel _ _ _ _ (by dsimp only; omega)
    ⟨rfl, ⟨ms, hstart⟩, Nat.le_refl _, fun _ => by simp [Call.Fills]⟩
  rintro c s' w' t ⟨hc, ⟨rest, hrest⟩, hle, hfills⟩
  unfold sessionRound
  rw [hc]
  dsimp only
  rw [wp_bind, wp_note, Post.seq_ret, wp_bind, wire_host _ _ rfl rfl]
  have hentered : x.Serves s w ms rest s' ⟨w'.input, w'.output,
      (host w'.host (.note (.enter .transmissionPhase))).2⟩ :=
    hrest.still rfl rfl (hx.note w'.host _)
  have hlt : loopFuel cfg + w'.input.length < fuel := by omega
  have hphase := hx.transmission hentered hlt
  refine wp_mono _ ?_ hphase
  rintro o s'' w'' t' ⟨⟨rfl, ⟨rest', hserves⟩, hlt⟩ | ⟨rfl, hserves⟩, hfills'⟩
  · rw [Post.seq_ret, wp_bind, wp_ctxNow, Post.seq_ret, wp_bind, wp_note, Post.seq_ret, pure_bind,
      wire_host _ _ rfl rfl]
    exact ⟨⟨hc, ⟨rest', hserves.still rfl rfl (hx.note _ _)⟩, Nat.le_trans (Nat.le_of_lt hlt) hle,
      hfills.append (.append (.note _ _) (.append hfills' (.note _ _)))⟩, hlt⟩
  · rw [Post.seq_ret, wp_bind, wp_ctxNow, Post.seq_ret, wp_bind, wp_note, Post.seq_ret, pure_bind,
      wire_host _ _ rfl rfl]
    exact ⟨rfl, hserves.still rfl rfl (hx.note _ _),
      hfills.append (.append (.note _ _) (.append hfills' (.note _ _)))⟩

end Session

end LwNBD
