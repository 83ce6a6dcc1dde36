import LwNBD.Nbd.Exports

/-!
# What is left behind

A context that `lwnbd_new_context` hands out is never given back. So what is left of an export whose
constructor fails, and of a client's session, is a context that every later client sees.

## The model

* `SameExports`, `OneMore` — what clients see of the context table is the same, or one context more.
* `HalfBuilds` — a call of `lwnbd_plugin_new` whose constructor fails after a context was taken.
* `Visit`, `serveAll` — the session of a client, and a sequence of them.

## What is proved

* `plugin_new_atomic` — a call of `lwnbd_plugin_new` leaves what clients see or adds an export to
  it, if and only if it is no such call; and where there were none, and no session took a context,
  every context has a plugin.
* `sessions_keep_exports` — sessions leave what clients see if and only if they start without a
  handshake, the table is full, or there are none of them.
-/

namespace LwNBD

open Resumption

/-! ### Creating an export -/

/-- Clients see the same: as many contexts, with the same names, found alike. -/
structure SameExports (reg reg' : Registry) : Prop where
  /-- `lwnbd_contexts_count`. -/
  count : reg'.contextsCount = reg.contextsCount
  /-- What is listed. -/
  announced : reg'.announced = reg.announced
  /-- `lwnbd_get_context_string`. -/
  found : ∀ name, reg'.getContextString name = reg.getContextString name

/-- One context more, of the plugin `p`. -/
structure OneMore (reg reg' : Registry) (p : Plugin) : Prop where
  /-- It is in the first slot that was free, and has its plugin; the others are as they were. -/
  created : ∃ i : ContextIdx, i.val = reg.contextsCount ∧ (reg'.get i).p = some p ∧
    reg'.status = (reg.mark i).status ∧ ∀ j, j ≠ i → reg'.get j = reg.get j
  /-- It is the only one that is seen besides those that were. -/
  count : reg.Gapless → reg'.contextsCount = reg.contextsCount + 1

/-- A constructor fails after a context was taken for it. -/
def HalfBuilds (lib : Library) (p : LwnbdPlugin) (ctor : CtorRun) : Prop :=
  p.ctor = true ∧ p.exportWithoutHandle ≠ 1 ∧ ctor.ret ≠ 0 ∧ lib.reg.contextsCount < MAX_CONTEXTS

/-- A change that leaves no context without a plugin. -/
def Change.Builds (lib : Library) : Change → Prop
  | .pluginInit _ => True
  | .pluginNew plugin ctor => ∀ p, lib.plugin plugin = some p → ¬ HalfBuilds lib p ctor
  | .session ctx => ctx.preinit ≠ 0 ∨ lib.reg.contextsCount = MAX_CONTEXTS

section Atomic

variable {lib lib' : Library} {plugin : UInt32} {p : LwnbdPlugin} {ctor : CtorRun}
  {reg : Registry} {i : ContextIdx}

theorem SameExports.refl (reg : Registry) : SameExports reg reg := ⟨rfl, rfl, fun _ => rfl⟩

theorem contextsCount_lt_max (hn : lib.reg.newContext = some (i, reg)) :
    lib.reg.contextsCount < MAX_CONTEXTS := by
  have hi := (Registry.newContext_eq_some hn).1
  exact Nat.lt_of_le_of_lt (Nat.le_of_eq hi.symm) i.isLt

theorem exists_newContext (h : lib.reg.contextsCount < MAX_CONTEXTS) :
    ∃ i reg, lib.reg.newContext = some (i, reg) := by
  cases hn : lib.reg.newContext with
  | none => exact absurd (Registry.newContext_eq_none.mp hn) (Nat.ne_of_lt h)
  | some x => exact ⟨x.1, x.2, rfl⟩

theorem oneMore_of_newContext {f : Context → Context} {q : Plugin}
    (hn : lib.reg.newContext = some (i, reg)) (hf : ∀ c, (f c).p = some q) :
    OneMore lib.reg (reg.update i f) q where
  created := by
    obtain ⟨hi, hreg, -⟩ := Registry.newContext_eq_some hn
    refine ⟨i, hi, ?_, ?_, fun j hj => ?_⟩
    · rw [Registry.get_update]
      exact hf _
    · rw [Registry.status_update, hreg]
    · rw [Registry.get_update_newContext hn, if_neg hj]
  count := fun hg => by
    rw [Registry.contextsCount_update]
    exact hg.contextsCount hn

/-- A failed constructor leaves a context behind. -/
theorem HalfBuilds.not_same (h : HalfBuilds lib p ctor) (hp : lib.plugin plugin = some p) :
    ∃ lib', lwnbdPluginNew lib plugin ctor = .ret (-1, lib') ∧ ¬ SameExports lib.reg lib'.reg := by
  obtain ⟨hctor, hwo, hret, hlt⟩ := h
  obtain ⟨i, reg, hn⟩ := exists_newContext hlt
  refine ⟨_, pluginNew_failed hp hctor hwo hret hn, fun hsame => ?_⟩
  have hmore := Registry.contextsCount_lt hn
  exact absurd hsame.count (Nat.ne_of_gt hmore)

/-- Any other call leaves what clients see, or adds a context. -/
theorem atomic_of_not_halfBuilds (hp : lib.plugin plugin = some p) (h : ¬ HalfBuilds lib p ctor)
    {r : ℤ} (hr : lwnbdPluginNew lib plugin ctor = .ret (r, lib')) :
    (r = -1 → SameExports lib.reg lib'.reg) ∧
      (r = 0 → p.exportWithoutHandle ≠ 1 → OneMore lib.reg lib'.reg p.toPlugin) := by
  cases hasks : lib.newAsks plugin with
  | false =>
    obtain ⟨rfl, hzero⟩ := pluginNew_of_not_asks hasks hr
    refine ⟨fun _ => .refl _, fun h0 hwo => ?_⟩
    obtain ⟨q, hq, hwo'⟩ := hzero h0
    rw [hp] at hq
    cases hq
    exact absurd hwo' hwo
  | true =>
    obtain ⟨hctor, hwo⟩ : p.ctor = true ∧ p.exportWithoutHandle ≠ 1 := by
      simpa [Library.newAsks, hp] using hasks
    obtain ⟨i, reg, f, hn, rfl, -, hout⟩ := pluginNew_cases hp hctor hwo hr
    rcases hout with ⟨hret, -⟩ | ⟨-, rfl, hf⟩
    · exact absurd ⟨hctor, hwo, hret, contextsCount_lt_max hn⟩ h
    · exact ⟨fun h1 => absurd h1 (by decide), fun _ _ => oneMore_of_newContext hn hf⟩

/-- Every context that is seen has a plugin. -/
def AllBuilt (reg : Registry) : Prop :=
  ∀ i : ContextIdx, i < reg.contextsCount → (reg.get i).p ≠ none

theorem AllBuilt.takes {reg' : Registry} {h : Option ContextIdx}
    {P : Context → Prop} (hb : AllBuilt reg) (hg : reg.Gapless) (ht : reg.Takes P h reg')
    (hP : ∀ i, h = some i → ∀ c, P c → c.p ≠ none) : AllBuilt reg' := by
  cases ht with
  | none => exact hb
  | @some i reg₁ f hn _ hf =>
    intro j hj
    rw [Registry.contextsCount_update, hg.contextsCount hn] at hj
    rw [Registry.get_update_newContext hn]
    split_ifs with hji
    · exact hP i rfl _ (hf _)
    · have hi := (Registry.newContext_eq_some hn).1
      refine hb j (Nat.lt_of_le_of_ne (Nat.le_of_lt_succ hj) fun he => hji (Fin.ext ?_))
      rw [he, hi]
      rfl

theorem AllBuilt.resized {reg' : Registry} (hb : AllBuilt reg) (h : reg.Resized reg') :
    AllBuilt reg' := by
  intro i hi
  rw [h.contextsCount] at hi
  rw [h.contexts i]
  exact hb i hi

/-- What takes a context, and leaves none without a plugin, makes one with a plugin. -/
theorem Change.Builds.makes {ch : Change} (h : ch.Builds lib) (hi : lib.hands ch = some i)
    {c : Context} (hc : ch.Makes c) : c.p ≠ none := by
  have hasks : lib.asks ch = true := by
    by_contra hne
    rw [Library.hands, if_neg hne] at hi
    cases hi
  have hlt : lib.reg.contextsCount < MAX_CONTEXTS := by
    rw [Library.hands, if_pos hasks, Option.map_eq_some_iff] at hi
    obtain ⟨⟨j, reg⟩, hn, -⟩ := hi
    exact contextsCount_lt_max hn
  cases ch with
  | pluginInit init => exact hc
  | pluginNew plugin ctor =>
    obtain ⟨p, hp, hctor, hwo⟩ : ∃ p, lib.plugin plugin = some p ∧ p.ctor = true ∧
        p.exportWithoutHandle ≠ 1 := by
      simpa [Library.asks, Library.newAsks, Option.any_eq_true] using hasks
    refine hc ?_
    by_contra hret
    exact h p hp ⟨hctor, hwo, hret, hlt⟩
  | session ctx =>
    have hpre : ctx.preinit = 0 := of_decide_eq_true hasks
    rcases h with hne | hfull
    · exact absurd hpre hne
    · exact absurd hfull (Nat.ne_of_lt hlt)

/-- Where no change leaves one without, every context has a plugin. -/
theorem allBuilt_of_reachable {hs : List ContextIdx}
    (h : Reachable (fun lib ch => ch.Builds lib) lib hs) : AllBuilt lib.reg := by
  induction h with
  | start => exact fun i hi => absurd hi (Nat.not_lt_zero _)
  | step hr hok hch ih =>
    obtain ⟨reg, ht, hres⟩ := hch.takes
    exact (ih.takes hr.kept.created_iff ht fun i hi c hc => hok.makes hi hc).resized hres

end Atomic

/-- **Creating an export**, in any table, for any plugin that is registered, whatever its
constructor does. If it returns `-1` clients see the same, and if it returns `0`, for a plugin whose
exports have handles, they see one context more: if and only if it is not so that the constructor
fails after a context was taken. And where that never happens, and no session takes a context, every
context that clients see has a plugin. -/
theorem plugin_new_atomic (lib : Library) (plugin : UInt32) (ctor : CtorRun) :
    (∀ p, lib.plugin plugin = some p →
      ((∀ r lib', lwnbdPluginNew lib plugin ctor = .ret (r, lib') →
          (r = -1 → SameExports lib.reg lib'.reg) ∧
          (r = 0 → p.exportWithoutHandle ≠ 1 → OneMore lib.reg lib'.reg p.toPlugin)) ↔
        ¬ HalfBuilds lib p ctor)) ∧
    ∀ hs, Reachable (fun lib ch => ch.Builds lib) lib hs → AllBuilt lib.reg := by
  refine ⟨fun p hp => ⟨fun hatomic hbad => ?_, fun hgood r lib' hr => ?_⟩, fun hs h => ?_⟩
  · obtain ⟨lib', hr, hne⟩ := hbad.not_same hp
    exact hne ((hatomic _ _ hr).1 rfl)
  · exact atomic_of_not_halfBuilds hp hgood hr
  · exact allBuilt_of_reachable h

namespace Sample

/-- The export `a` is added, and every context has a plugin. -/
theorem plugin_new_atomic_exporting :
    OneMore registered.reg exporting.reg memory.toPlugin ∧ AllBuilt exporting.reg := by
  have hatomic := plugin_new_atomic registered 0 (named 0 [97] isCStr_a)
  have hbuilds : ¬ HalfBuilds registered memory (named 0 [97] isCStr_a) := fun h => h.2.2.1 rfl
  have hnew : lwnbdPluginNew registered 0 (named 0 [97] isCStr_a) = .ret (0, exporting) := by
    decide +kernel
  have hinit : (Change.pluginInit (some memory)).Leads .empty registered := ⟨0, by decide +kernel⟩
  have hleads : (Change.pluginNew 0 (named 0 [97] isCStr_a)).Leads registered exporting := ⟨0, hnew⟩
  have hok : Change.Builds .empty (.pluginInit (some memory)) := trivial
  have hok' : Change.Builds registered (.pluginNew 0 (named 0 [97] isCStr_a)) :=
    fun p _ h => h.2.2.1 rfl
  refine ⟨((hatomic.1 memory rfl).mpr hbuilds 0 exporting hnew).2 rfl (by decide), ?_⟩
  exact (plugin_new_atomic exporting 0 (named 0 [97] isCStr_a)).2 _
    (.step (.step .start hok hinit) hok' hleads)

/-- The library when a constructor has named its context `mc0`, and failed. -/
def halfBuilt : Library :=
  { registered with reg := (Registry.empty.mark slot).update slot fun _ =>
    ⟨0, none, [109, 99, 48], [], 0⟩ }

theorem isCStr_mc0 : IsCStr 32 [109, 99, 48] := by decide

theorem halfBuilt_leads :
    (Change.pluginNew 0 (named 1 [109, 99, 48] isCStr_mc0)).Leads registered halfBuilt :=
  ⟨-1, by decide +kernel⟩

/-- **A failed constructor leaves an export behind**: `lwnbd_plugin_new` returns `-1`, and clients
see one context more, named `mc0`, that has no plugin. -/
theorem half_built_export :
    lwnbdPluginNew registered 0 (named 1 [109, 99, 48] isCStr_mc0) = .ret (-1, halfBuilt) ∧
      ¬ SameExports registered.reg halfBuilt.reg ∧
      (∃ hs, Reachable (fun _ _ => True) halfBuilt hs) ∧ ¬ AllBuilt halfBuilt.reg := by
  refine ⟨by decide +kernel, fun h => absurd h.count (by decide +kernel), ?_, fun h => ?_⟩
  · exact ⟨_, .step registered_reachable trivial halfBuilt_leads⟩
  · exact absurd (h slot (by decide +kernel)) (by decide +kernel)

end Sample

/-! ### Serving clients -/

/-- The session of a client: its environment, and its socket. -/
structure Visit where
  /-- The state of the environment. -/
  σ : Type
  /-- The environment. -/
  env : Env Call Resp σ
  /-- Its state when the session starts. -/
  start : σ
  /-- The fuel of the loops. -/
  fuel : ℕ
  /-- The socket of the client. -/
  sock : ℤ

variable (cfg : Config)

/-- The memory after a session. -/
def Visit.serve (v : Visit) (s : Shared) : Shared :=
  ((nbdSynchronousClientThreadCb cfg v.fuel v.sock).run v.env s v.start).mem

/-- The memory after a sequence of sessions. -/
def serveAll (vs : List Visit) (s : Shared) : Shared := vs.foldl (fun s v => v.serve cfg s) s

section Serve

variable {cfg} {v : Visit} {vs : List Visit} {s s' s'' : Shared}

theorem Looks.trans (h : Looks s s') (h' : Looks s' s'') : Looks s s'' where
  ctx := by rw [h'.ctx, h.ctx]
  contexts := fun i => by rw [h'.contexts i, h.contexts i]
  status := h'.status.trans h.status

theorem serve_looks (h : s.ctx.preinit ≠ 0 ∨ s.reg.contextsCount = MAX_CONTEXTS) :
    Looks s (v.serve cfg s) := by
  have hopened : s.opened = s := by
    rw [Shared.opened]
    split_ifs with hpre
    · rcases h with hne | hfull
      · exact absurd hpre hne
      · rw [Registry.newContext_eq_none.mpr hfull]
        rfl
    · rfl
  have hlooks : Looks s.opened (v.serve cfg s) := session_looks v.env cfg v.fuel v.sock v.start
  rw [hopened] at hlooks
  exact hlooks

theorem contextsCount_serve (hpre : s.ctx.preinit = 0) (h : s.reg.contextsCount < MAX_CONTEXTS) :
    s.reg.contextsCount < (v.serve cfg s).reg.contextsCount := by
  have hlooks : Looks s.opened (v.serve cfg s) := session_looks v.env cfg v.fuel v.sock v.start
  rw [Shared.opened, if_pos hpre, newContext_taken h] at hlooks
  rw [hlooks.contextsCount]
  exact Registry.contextsCount_lt (newContext_taken h)

theorem contextsCount_serve_le : s.reg.contextsCount ≤ (v.serve cfg s).reg.contextsCount := by
  by_cases h : s.ctx.preinit ≠ 0 ∨ s.reg.contextsCount = MAX_CONTEXTS
  · exact Nat.le_of_eq (serve_looks h).contextsCount.symm
  · obtain ⟨hpre, hne⟩ := not_or.mp h
    exact Nat.le_of_lt (contextsCount_serve (not_not.mp hpre) (Nat.lt_of_le_of_ne Pool.next_le hne))

theorem contextsCount_serveAll_le :
    s.reg.contextsCount ≤ (serveAll cfg vs s).reg.contextsCount := by
  induction vs generalizing s with
  | nil => exact Nat.le_refl _
  | cons v vs ih => exact Nat.le_trans contextsCount_serve_le ih

theorem serveAll_looks (h : s.ctx.preinit ≠ 0 ∨ s.reg.contextsCount = MAX_CONTEXTS) :
    Looks s (serveAll cfg vs s) := by
  induction vs generalizing s with
  | nil => exact Looks.refl s
  | cons v vs ih =>
    have hv : Looks s (v.serve cfg s) := serve_looks h
    refine hv.trans (ih ?_)
    rw [hv.ctx, hv.contextsCount]
    exact h

end Serve

/-- **Sessions and exports.** After any sequence of sessions, with any clients, as many contexts are
created and the same exports are listed as before: if and only if there were no sessions, they start
without a handshake, or the table was full already. -/
theorem sessions_keep_exports (vs : List Visit) (s : Shared) :
    (serveAll cfg vs s).reg.contextsCount = s.reg.contextsCount ∧
        (serveAll cfg vs s).reg.announced = s.reg.announced ↔
      vs = [] ∨ s.ctx.preinit ≠ 0 ∨ s.reg.contextsCount = MAX_CONTEXTS := by
  constructor
  · rintro ⟨hcount, -⟩
    cases vs with
    | nil => exact .inl rfl
    | cons v vs =>
      refine .inr (or_iff_not_imp_left.mpr fun hpre => ?_)
      by_contra hne
      have hmore : s.reg.contextsCount < (v.serve cfg s).reg.contextsCount :=
        contextsCount_serve (not_not.mp hpre) (Nat.lt_of_le_of_ne Pool.next_le hne)
      have hle : (v.serve cfg s).reg.contextsCount ≤ (serveAll cfg (v :: vs) s).reg.contextsCount :=
        contextsCount_serveAll_le
      omega
  · rintro (rfl | h)
    · exact ⟨rfl, rfl⟩
    · have hlooks : Looks s (serveAll cfg vs s) := serveAll_looks h
      exact ⟨hlooks.contextsCount, hlooks.reg.announced⟩

namespace Sample

/-- A client that leaves at once. -/
def passer : Visit := ⟨Wire Unit, wire quiet, client [], 1, 5⟩

/-- Two clients leave without a trace where sessions start without a handshake. -/
theorem sessions_keep_exports_preinit :
    (serveAll Sample.cfg [passer, passer] ⟨{ Sample.ctx with preinit := 1 },
  exporting.reg⟩).reg.contextsCount = 1 ∧
      (serveAll Sample.cfg [passer, passer] ⟨{ Sample.ctx with preinit := 1 },
  exporting.reg⟩).reg.announced =
        [([97], [109])] :=
  (sessions_keep_exports Sample.cfg [passer, passer] ⟨{ Sample.ctx with preinit := 1 },
    exporting.reg⟩).mpr (.inr (.inl (by decide)))

/-- **A client that leaves at once leaves a context behind**, without a name, that is listed. -/
theorem passer_takes_context :
    (serveAll Sample.cfg [passer] mem).reg.contextsCount = 1 ∧ mem.reg.contextsCount = 0 ∧
      (serveAll Sample.cfg [passer] mem).reg.announced = [([], [])] ∧
      ¬ ((serveAll Sample.cfg [passer] mem).reg.contextsCount = mem.reg.contextsCount ∧
        (serveAll Sample.cfg [passer] mem).reg.announced = mem.reg.announced) := by
  decide +kernel

end Sample

end LwNBD
