import LwNBD.Nbd.Exports

/-!
# Sessions side by side

Several clients connect to one server instance, each on a socket of its own, and their sessions run
a call at a time in any order. What is sent over a socket reaches the client it belongs to; but
every answer of the handshake and everything in the transmission phase goes over `ctx->sock`, the
one socket in the record that all sessions share. And a session that starts with the handshake takes
a context from the table they share, which the others list from then on, and which may be the last.

## The model

* `Net` — the lines to the clients, one for each socket, the plugins behind all sessions, and the
  local memory of each session; `net` — the environment of one session.
* `ReadsOnly` — what the plugins answer to some of the calls depends on their contents only, and
  leaves these as they are.
* `Net.part` — what belongs to one session.
* `after` — where a schedule of the sessions leads to, each of which starts at its first step.
* `Apart` — a step at which a session keeps to itself.

## What is proved

* `sessions_apart` — a call goes over its client's own socket exactly if it does not go over
  `ctx->sock` or that is the client's; in a run in which every session keeps to itself, whatever
  the order, every client receives what it would receive alone.
* `Sample.answers_another` — the answer to a client that is not on `ctx->sock` goes to another.
-/

namespace LwNBD

open Resumption

variable {ι τ β κ γ : Type} [DecidableEq ι]

/-! ### Lines, plugins and stacks -/

/-- The line to a client. -/
structure Line (τ : Type) where
  /-- The bytes that were sent to the client. -/
  received : Bytes
  /-- Whatever else is at the other end. -/
  peer : τ
  deriving DecidableEq

/-- What the sessions talk to. -/
structure Net (ι τ β γ : Type) where
  /-- The line of each socket. -/
  lines : ℤ → Line τ
  /-- The plugins. -/
  backend : β
  /-- The uninitialised memory of each session. -/
  stack : ι → γ

variable (peer : Env Call Resp τ) (backend : Env Call Resp β) (locals : Env Call Resp γ)

/-- The environment of session `i`. The transport is that of the socket that is named, and may
fail as it likes; the plugins are those of all sessions. -/
def net (i : ι) : Env Call Resp (Net ι τ β γ)
  | w, .send k obj buf flags =>
    let x := peer (w.lines k).peer (.send k obj buf flags)
    (x.1, { w with lines := Function.update w.lines k ⟨(w.lines k).received ++ buf.take x.1.1.toNat,
      x.2⟩ })
  | w, .recv k obj len =>
    let x := peer (w.lines k).peer (.recv k obj len)
    (x.1, { w with lines := Function.update w.lines k ⟨(w.lines k).received, x.2⟩ })
  | w, .uninit n =>
    let x := locals (w.stack i) (.uninit n)
    (x.1, { w with stack := Function.update w.stack i x.2 })
  | w, .note _ => ((), w)
  | w, e =>
    let x := backend w.backend e
    (x.1, { w with backend := x.2 })

/-- The calls that only read: they are answered from the contents, and leave these as they are. -/
structure ReadsOnly (contents : β → κ) (reads : Call → Prop) : Prop where
  /-- The answer depends on the contents. -/
  answer : ∀ b b' e, reads e → contents b = contents b' → (backend b e).1 = (backend b' e).1
  /-- The contents stay. -/
  keep : ∀ b e, reads e → contents (backend b e).2 = contents b

variable (socks : ι → ℤ)

/-- What belongs to session `i`: its line, its local memory, and what it sees of the plugins. -/
def Net.part (contents : β → κ) (i : ι) (w : Net ι τ β γ) : Line τ × κ × γ :=
  (w.lines (socks i), contents w.backend, w.stack i)

/-- A call that session `i` keeps to itself. -/
def Own (reads : Call → Prop) (i : ι) (e : Call) : Prop :=
  (∀ k, e.sock? = some k → k = socks i) ∧ (e.isBackend → reads e)

variable {peer backend locals socks}

omit [DecidableEq ι] in
/-- Two nets in which session `i` finds the same. -/
theorem Net.part_eq {contents : β → κ} {i : ι} {w w' : Net ι τ β γ}
    (h : w.part socks contents i = w'.part socks contents i) :
    w.lines (socks i) = w'.lines (socks i) ∧ contents w.backend = contents w'.backend ∧
      w.stack i = w'.stack i := by
  simpa [Net.part] using h

/-- The sessions have their own parts of the net. -/
theorem net_separates {contents : β → κ} {reads : Call → Prop}
    (hr : ReadsOnly backend contents reads) (hinj : Function.Injective socks) :
    Separates (net peer backend locals) (Net.part socks contents)
    (Own socks reads) Call.isNote where
  answer := by
    intro i e w w' ⟨hk, hb⟩ hpart
    obtain ⟨hline, hcont, hstack⟩ := Net.part_eq hpart
    cases e with
    | send k obj buf flags => obtain rfl := hk k rfl; simp only [net, hline]
    | recv k obj len => obtain rfl := hk k rfl; simp only [net, hline]
    | uninit n => simp only [net, hstack]
    | note n => rfl
    | _ => exact hr.answer _ _ _ (hb rfl) hcont
  self := by
    intro i e w w' ⟨hk, hb⟩ hpart
    obtain ⟨hline, hcont, hstack⟩ := Net.part_eq hpart
    cases e with
    | send k obj buf flags =>
      obtain rfl := hk k rfl
      simp only [net, Net.part, hline, hcont, hstack, Function.update_self]
    | recv k obj len =>
      obtain rfl := hk k rfl
      simp only [net, Net.part, hline, hcont, hstack, Function.update_self]
    | uninit n => simp only [net, Net.part, hline, hcont, hstack, Function.update_self]
    | note n => exact hpart
    | _ => simp only [net, Net.part, hline, hstack, hr.keep _ _ (hb rfl), hcont]
  other := by
    intro i j e w hij ⟨hk, hb⟩
    have hne : socks j ≠ socks i := fun h => hij (hinj h)
    cases e with
    | send k obj buf flags =>
      obtain rfl := hk k rfl; simp only [net, Net.part, Function.update_of_ne hne]
    | recv k obj len => obtain rfl := hk k rfl; simp only [net, Net.part, Function.update_of_ne hne]
    | uninit n => simp only [net, Net.part, Function.update_of_ne hij]
    | note n => rfl
    | _ => simp only [net, Net.part, hr.keep _ _ (hb rfl)]
  mute := by
    intro i j e w he
    cases e with
    | note n => rfl
    | _ => exact he.elim

/-! ### Sessions in any order -/

variable (peer backend locals socks) (cfg : Config) (fuel : ℕ)

/-- The sessions of the clients on these sockets, before they start. -/
def sessions (s : Shared) (w : Net ι τ β γ) : Conf ι Shared Call Resp (Net ι τ β γ) ℤ :=
  ⟨fun i => nbdSynchronousClientThreadCb cfg fuel (socks i), s, w⟩

/-- Where a schedule leads to. -/
def after (s : Shared) (w : Net ι τ β γ) (sched : List ι) :
    Conf ι Shared Call Resp (Net ι τ β γ) ℤ :=
  (sessions socks cfg fuel s w).run (net peer backend locals) sched

/-- The phase that a session starts in, and stays in. -/
def ContextNbd.phase (ctx : ContextNbd) : ClientState :=
  if ctx.preinit = 0 then .handshake else .transmission

/-- A context is left to be taken. -/
def Shared.HasFree (s : Shared) : Prop := s.reg.firstFree < MAX_CONTEXTS

instance (s : Shared) : Decidable s.HasFree := inferInstanceAs (Decidable (_ < _))

/-- A session keeps to itself at a step, when the sessions `pre` took the steps before: it finds
a context if it starts and there was one at first; it answers over `ctx->sock` only if that is its
client's socket; it asks the plugins only for what changes nothing; and it lists the contexts only
before another session has started. -/
structure Apart (reads : Call → Prop) (first : Shared) (sock : ℤ) (pre : List ι)
    (i : ι) (now : Shared) (next? : Option Call) : Prop where
  /-- It finds a context. -/
  starts : i ∉ pre → first.HasFree → now.HasFree
  /-- It answers over its client's socket. -/
  answers : ∀ e ∈ next?, e.viaCtx now.ctx.phase → now.ctx.sock = sock
  /-- It changes nothing the plugins answer from. -/
  asks : ∀ e ∈ next?, e.isBackend → reads e
  /-- It lists what it would list alone. -/
  lists : ∀ e ∈ next?, e.lists → ∀ j ∈ pre, j = i

variable {peer backend locals socks cfg fuel} {s s' : Shared} {w : Net ι τ β γ}

/-! ### A session starts -/

/-- Sessions take contexts. -/
def Shared.Takes (s : Shared) : Prop := s.ctx.preinit = 0 ∧ s.HasFree

theorem opened_ctx (s : Shared) : s.opened.ctx = s.ctx := by
  unfold Shared.opened
  split_ifs <;> rfl

theorem opened_of_takes (h : s.Takes) : s.opened = s.taken h.2 := by
  rw [Shared.opened, if_pos h.1, newContext_taken h.2]
  rfl

theorem opened_of_not_takes (h : ¬ s.Takes) : s.opened = s := by
  by_cases hpre : s.ctx.preinit = 0
  · have hfull : s.reg.newContext = none :=
      Registry.newContext_eq_none.mpr
        (Nat.le_antisymm Pool.next_le (Nat.le_of_not_lt fun hlt => h ⟨hpre, hlt⟩))
    rw [Shared.opened, if_pos hpre, hfull]
    rfl
  · rw [Shared.opened, if_neg hpre]

theorem taken_count (h : s.HasFree) : s.reg.contextsCount < (s.taken h).reg.contextsCount :=
  Registry.contextsCount_lt (newContext_taken h)

theorem opened_sees (hfresh : s.reg.Fresh) : Sees s.Takes s.opened s.opened where
  ctx := rfl
  contexts := fun _ => rfl
  count := Nat.le_refl _
  status := fun _ => rfl
  fresh := by
    intro h
    rw [opened_of_takes h]
    refine ⟨fun i hi => hfresh i (Nat.le_trans (Nat.le_of_lt (taken_count h.2)) hi), ⟨_, h.2⟩,
      taken_count h.2, ?_⟩
    exact hfresh _ (Nat.le_refl _)

theorem Sees.taken {more : Prop} {s₀ : Shared} (h : Sees more s₀ s) (hmore : more)
    (hfree : s.HasFree) : Sees more s₀ (s.taken hfree) where
  ctx := h.ctx
  contexts := h.contexts
  count := Nat.le_trans h.count (Nat.le_of_lt (taken_count hfree))
  status := fun hn => absurd hmore hn
  fresh := h.fresh

/-- The memory of sessions that have started, or are about to. -/
def Shared.Open (s s' : Shared) : Prop := s' = s ∨ Sees s.Takes s.opened s'

theorem Shared.Open.ctx (h : s.Open s') : s'.ctx = { s.ctx with state := s'.ctx.state } := by
  rcases h with rfl | h
  · rfl
  · have hctx := h.ctx
    rwa [opened_ctx] at hctx

theorem Shared.Open.count (h : s.Open s') : s.reg.contextsCount ≤ s'.reg.contextsCount := by
  rcases h with rfl | h
  · exact Nat.le_refl _
  · refine Nat.le_trans ?_ h.count
    by_cases ht : s.Takes
    · rw [opened_of_takes ht]
      exact Nat.le_of_lt (taken_count ht.2)
    · rw [opened_of_not_takes ht]

theorem Shared.Open.hasFree (h : s.Open s') (hfree : s'.HasFree) : s.HasFree :=
  Nat.lt_of_le_of_lt h.count hfree

theorem Shared.Open.opened (h : s.Open s') (hfresh : s.reg.Fresh) :
    Sees s.Takes s.opened s'.opened := by
  rcases h with rfl | hsees
  · exact opened_sees hfresh
  · by_cases ht : s'.Takes
    · have hpre : s.ctx.preinit = 0 := by
        have hp := ht.1
        rwa [Shared.Open.ctx (.inr hsees)] at hp
      rw [opened_of_takes ht]
      exact hsees.taken ⟨hpre, Shared.Open.hasFree (.inr hsees) ht.2⟩ ht.2
    · rw [opened_of_not_takes ht]
      exact hsees

theorem settle_lwnbdNewContext : lwnbdNewContext.settle s =
    if h : s.HasFree then (.ret (some ⟨_, h⟩), s.taken h) else (.ret none, s) := by
  change Prog.settle (dite _ _ _) s = _
  by_cases h : s.reg.firstFree < MAX_CONTEXTS
  · rw [dif_pos h, dif_pos (show s.HasFree from h)]
    rfl
  · rw [dif_neg h, dif_neg (show ¬ s.HasFree from h)]
    rfl

/-- The first step of a session that takes a context. -/
theorem settle_taken (sock : ℤ) (h : s.Takes) :
    (nbdSynchronousClientThreadCb cfg fuel sock).settle s =
    (Prog.loop fuel (sessionRound cfg fuel) ⟨sock, .handshake, some ⟨_, h.2⟩⟩, s.taken h.2) := by
  have hnew := settle_lwnbdNewContext (s := s)
  rw [dif_pos h.2] at hnew
  have hinit : (clientInit sock).settle s =
      (.ret (some ⟨sock, .handshake, some ⟨_, h.2⟩⟩), s.taken h.2) := by
    change Prog.settle (if s.ctx.preinit = 0 then _ else _) s = _
    rw [if_pos h.1, Prog.settle_bind_ret hnew]
    rfl
  rw [nbdSynchronousClientThreadCb, Prog.settle_bind_ret hinit]
  cases fuel with
  | zero => rfl
  | succ n => rfl

theorem settle_full (sock : ℤ) (hpre : s.ctx.preinit = 0) (h : ¬ s.HasFree) :
    (nbdSynchronousClientThreadCb cfg fuel sock).settle s = (.ret (-1), s) := by
  have hnew := settle_lwnbdNewContext (s := s)
  rw [dif_neg h] at hnew
  have hinit : (clientInit sock).settle s = (.ret none, s) := by
    change Prog.settle (if s.ctx.preinit = 0 then _ else _) s = _
    rw [if_pos hpre, Prog.settle_bind_ret hnew]
    rfl
  rw [nbdSynchronousClientThreadCb, Prog.settle_bind_ret hinit]
  rfl

theorem settle_preinit (sock : ℤ) (hpre : s.ctx.preinit ≠ 0) :
    (nbdSynchronousClientThreadCb cfg fuel sock).settle s = (.call .getDefaultexport fun
      | none => pure (-1)
      | some i => Prog.loop fuel (sessionRound cfg fuel) ⟨sock, .transmission, some i⟩, s) := by
  change Prog.settle (Prog.bind (if s.ctx.preinit = 0 then _ else _) _) s = _
  rw [if_neg hpre]
  refine congrArg (fun k => (Prog.call Call.getDefaultexport k, s)) (funext fun r => ?_)
  cases r with
  | none => rfl
  | some i => rfl

theorem settle_thread (sock : ℤ) :
    ((nbdSynchronousClientThreadCb cfg fuel sock).settle s).2 = s.opened := by
  by_cases ht : s.Takes
  · rw [settle_taken sock ht, opened_of_takes ht]
  · rw [opened_of_not_takes ht]
    by_cases hpre : s.ctx.preinit = 0
    · rw [settle_full sock hpre fun hfree => ht ⟨hpre, hfree⟩]
    · rw [settle_preinit sock hpre]

omit [DecidableEq ι] in
variable (socks cfg fuel w) in
/-- Sessions start alike, whether others have started or not. -/
theorem sessions_start (hfresh : s.reg.Fresh) : (sessions socks cfg fuel s w).Starts
    (fun i => Speaks s.ctx.phase (socks i) s.ctx) Call.isNote (fun e => e.lists)
    (Sees s.Takes s.opened) Shared.HasFree Eq := by
  intro i a b (ha : s.Open a) (hb : s.Open b) hroom
  have hmem :
      Sees s.Takes s.opened ((nbdSynchronousClientThreadCb cfg fuel (socks i)).settle a).2 := by
    rw [settle_thread]
    exact ha.opened hfresh
  refine ⟨?_, hmem⟩
  have hpre (t : Shared) (ht : s.Open t) : t.ctx.preinit = s.ctx.preinit := by rw [ht.ctx]
  have hsession (c c' : NbdClient) (hc : c.Like c') (hphase : c.state = s.ctx.phase) :
      Agree (Speaks s.ctx.phase c.sock s.ctx) Call.isNote (fun e => e.lists)
        (Sees s.Takes s.opened) Eq (Prog.loop fuel (sessionRound cfg fuel) c)
        (Prog.loop fuel (sessionRound cfg fuel) c') := by
    have hc : Alike s.Takes s.opened c.state c.sock Eq _ _ := session_alike cfg fuel hc
    rwa [hphase, Alike, opened_ctx] at hc
  change Agree _ _ _ _ _ ((nbdSynchronousClientThreadCb cfg fuel (socks i)).settle a).1
    ((nbdSynchronousClientThreadCb cfg fuel (socks i)).settle b).1
  by_cases hzero : s.ctx.preinit = 0
  · have hphase : .handshake = s.ctx.phase := (if_pos hzero).symm
    by_cases hfree : a.HasFree
    · rw [settle_taken _ ⟨(hpre a ha).trans hzero, hfree⟩,
        settle_taken _ ⟨(hpre b hb).trans hzero, hroom.mp hfree⟩]
      exact hsession ⟨socks i, .handshake, some ⟨_, hfree⟩⟩ _ ⟨some ⟨_, hroom.mp hfree⟩,
        rfl, by simp⟩ hphase
    · rw [settle_full _ ((hpre a ha).trans hzero) hfree,
        settle_full _ ((hpre b hb).trans hzero) (mt hroom.mpr hfree)]
      exact .pure rfl
  · have hphase : .transmission = s.ctx.phase := (if_neg hzero).symm
    rw [settle_preinit _ fun he => hzero ((hpre a ha).symm.trans he),
      settle_preinit _ fun he => hzero ((hpre b hb).symm.trans he)]
    refine .call ⟨id, by simp [Call.sock?]⟩ fun r => ?_
    cases r with
    | none => exact .pure rfl
    | some j => exact hsession ⟨socks i, .transmission, some j⟩ _ (.refl _) hphase

/-! ### Sessions that keep to themselves -/

variable {lib : Library} {hs : List ContextIdx} {ctx : ContextNbd}
  {sched : List ι} {i : ι} {e : Call}

/-- A call goes over the socket of its client, or over `ctx->sock`. -/
theorem after_speaks (hfresh : s.reg.Fresh)
    (he : (after peer backend locals socks cfg fuel s w sched).next? i = some e) (hn : ¬ e.isNote) :
    ∀ k, e.sock? = some k →
      k = if e.viaCtx (after peer backend locals socks cfg fuel s w sched).mem.ctx.phase then
        (after peer backend locals socks cfg fuel s w sched).mem.ctx.sock else socks i := by
  have hstart := sessions_start socks cfg fuel w hfresh
  have hopen : s.Open (after peer backend locals socks cfg fuel s w sched).mem :=
    (hstart.run sched).mem
  rw [hopen.ctx]
  rcases hstart.next? he with h | h
  · exact h.2
  · exact absurd h hn

/-- **Sessions side by side.** A call of the transport is over its client's own socket exactly if
it does not go over `ctx->sock`, or that is the client's. And in a run in which every session keeps
to itself all calls are, and every client's line is as it would be if its session took these steps
alone, from its start on: what was sent to it is what the session, run alone, sends. -/
theorem sessions_apart (hlib : Reachable (fun _ _ => True) lib hs) {contents : β → κ}
    {reads : Call → Prop} (hr : ReadsOnly backend contents reads) (hinj : Function.Injective socks)
    (sched : List ι) :
    let run := after peer backend locals socks cfg fuel ⟨ctx, lib.reg⟩ w
    (∀ pre i e k, pre ++ [i] <+: sched → (run pre).next? i = some e → e.sock? = some k →
      (k = socks i ↔ (e.viaCtx (run pre).mem.ctx.phase → (run pre).mem.ctx.sock = socks i))) ∧
    ((∀ pre i, pre ++ [i] <+: sched →
        Apart reads ⟨ctx, lib.reg⟩ (socks i) pre i (run pre).mem ((run pre).next? i)) →
      (∀ pre i e k, pre ++ [i] <+: sched → (run pre).next? i = some e → e.sock? = some k →
        k = socks i) ∧
      (∀ i, (run sched).env.lines (socks i) =
        (run (List.replicate (sched.count i) i)).env.lines (socks i)) ∧
      ∀ i,
        let alone := (nbdSynchronousClientThreadCb cfg fuel (socks i)).run
          (net peer backend locals i) ⟨ctx, lib.reg⟩ w
        alone.trace.length < sched.count i →
          (run sched).env.lines (socks i) = alone.env.lines (socks i)) := by
  intro run
  have hexact : ∀ pre i e k, (run pre).next? i = some e → e.sock? = some k →
      (k = socks i ↔ (e.viaCtx (run pre).mem.ctx.phase → (run pre).mem.ctx.sock = socks i)) := by
    intro pre i e k he hk
    have hn : ¬ e.isNote := by cases e <;> simp_all [Call.sock?, Call.isNote]
    have hspeaks := after_speaks hlib.fresh he hn k hk
    change k = if e.viaCtx (run pre).mem.ctx.phase then (run pre).mem.ctx.sock else socks i
      at hspeaks
    rw [hspeaks]
    by_cases hv : e.viaCtx (run pre).mem.ctx.phase
    · simp [hv]
    · simp [hv]
  refine ⟨fun pre i e k _ => hexact pre i e k, fun hapart => ?_⟩
  have hsock : ∀ pre i e k, pre ++ [i] <+: sched → (run pre).next? i = some e → e.sock? = some k →
      k = socks i := fun pre i e k hpre he hk =>
    (hexact pre i e k he hk).mpr ((hapart pre i hpre).answers e he)
  have hlines : ∀ i, (run sched).env.lines (socks i) =
      (run (List.replicate (sched.count i) i)).env.lines (socks i) := by
    intro i
    have hstart := sessions_start (s := ⟨ctx, lib.reg⟩) socks cfg fuel w hlib.fresh
    have hpart := noninterference (net_separates hr hinj) (fun i e he => he.1) hstart sched
      (fun pre i e hpre he _ => ⟨fun k => hsock pre i e k hpre he, (hapart pre i hpre).asks e he⟩)
      (fun pre i hpre hi =>
        ⟨Shared.Open.hasFree (hstart.run pre).mem, (hapart pre i hpre).starts hi⟩)
      (fun pre i e hpre he => (hapart pre i hpre).lists e he) i
    rw [List.filter_eq] at hpart
    exact (Net.part_eq hpart).1
  refine ⟨hsock, hlines, fun i hlong => ?_⟩
  rw [hlines i]
  exact congrArg (fun v => Net.lines v (socks i)) (Conf.run_alone _ hlong)

namespace Sample

/-- The sockets of two clients: `true` is on `ctx->sock`. -/
def pair (b : Bool) : ℤ := if b then 5 else 6

/-- Each sends its flags, and the client on `ctx->sock` an `NBD_OPT_LIST`; then an
`NBD_OPT_ABORT`. -/
def pairNet : Net Bool (Wire Unit) Unit Unit :=
  ⟨fun k => ⟨[], client (toBe32 3 ++ (if k = 5 then option NBD_OPT_LIST 0 else []) ++
    option NBD_OPT_ABORT 0)⟩, (), fun _ => ()⟩

/-- Where a schedule of the two sessions leads to, with one export. -/
def pairAfter (sched : List Bool) : Conf Bool Shared Call Resp (Net Bool (Wire Unit) Unit Unit) ℤ :=
  after (wire quiet) quiet quiet pair Sample.cfg 2 ⟨Sample.ctx, exporting.reg⟩ pairNet sched

/-- The first lists the exports before the second starts; then both ask in turns, and the first is
answered again, and served to its end. -/
def turns : List Bool :=
  List.replicate 17 true ++ [false, true, false, false, true, false, false, true, false,
    false, true, false] ++ List.replicate 7 true

/-- `sessions_apart`, where only the client on `ctx->sock` is answered. -/
theorem sessions_apart_turns :
    (pairAfter turns).env.lines (pair true) =
        ((nbdSynchronousClientThreadCb Sample.cfg 2 (pair true)).run
          (net (wire quiet) quiet quiet true) ⟨Sample.ctx, exporting.reg⟩ pairNet).env.lines
          (pair true) ∧
      (pairAfter turns).env.lines (pair false) =
        (pairAfter (List.replicate (turns.count false) false)).env.lines (pair false) := by
  have hr : ReadsOnly quiet (fun _ => ()) fun _ => True :=
    ⟨fun _ _ _ _ _ => rfl, fun _ _ _ => rfl⟩
  have hinj : ∀ i j, pair i = pair j → i = j := by decide
  have hfree : ∀ n < turns.length, (pairAfter (turns.take n)).mem.HasFree := by decide +kernel
  have hsock : ∀ n < turns.length, ∀ i ∈ turns[n]?, ∀ e ∈ (pairAfter (turns.take n)).next? i,
      e.viaCtx (pairAfter (turns.take n)).mem.ctx.phase →
      (pairAfter (turns.take n)).mem.ctx.sock = pair i := by
    decide +kernel
  have hlist : ∀ n < turns.length, ∀ i ∈ turns[n]?, ∀ e ∈ (pairAfter (turns.take n)).next? i,
      e.lists → (turns.take n).all (· = i) := by
    decide +kernel
  have hapart : ∀ pre i, pre ++ [i] <+: turns →
      Apart (fun _ => True) ⟨Sample.ctx, exporting.reg⟩ (pair i) pre i (pairAfter pre).mem
      ((pairAfter pre).next? i) := by
    intro pre i hpre
    obtain ⟨hlen, hget, htake⟩ := Runs.place_of_prefix hpre
    have hs := hsock pre.length hlen i hget
    have hl := hlist pre.length hlen i hget
    rw [htake] at hs hl
    exact ⟨fun _ _ => htake ▸ hfree pre.length hlen, hs, fun _ _ _ => trivial,
      fun e he hlists j hj => of_decide_eq_true (List.all_eq_true.mp (hl e he hlists) j hj)⟩
  have hlines := (sessions_apart exporting_reachable hr (fun i j => hinj i j) turns).2 hapart
  have hlong : ((nbdSynchronousClientThreadCb Sample.cfg 2 (pair true)).run
      (net (wire quiet) quiet quiet true) ⟨Sample.ctx, exporting.reg⟩ pairNet).trace.length <
        turns.count true := by
    decide +kernel
  unfold pairAfter
  exact ⟨hlines.2.2 true hlong, hlines.2.1 false⟩

/-- **The answer to a client that is not on `ctx->sock` goes to another**: the acknowledgement of
the second client's `NBD_OPT_ABORT` is sent over socket 5, and the first client, whose session has
taken no step, receives it. -/
theorem answers_another :
    pair false = 6 ∧ pair true = 5 ∧
    (pairAfter (List.replicate 8 false)).next? false =
      some (.send 5 .fixedNewOptionReply (fixedNewOptionReply NBD_OPT_ABORT NBD_REP_ACK 0) 0) ∧
    ((pairAfter (List.replicate 9 false)).env.lines 5).received =
      fixedNewOptionReply NBD_OPT_ABORT NBD_REP_ACK 0 ∧
    ((pairAfter []).env.lines 5).received = [] := by
  decide +kernel

end Sample

end LwNBD
