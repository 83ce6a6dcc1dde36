import LwNBD.Core.Plugins
import LwNBD.Nbd.Alike
import LwNBD.Nbd.Phases

/-!
# The exports of a server

The context table, under everything that changes it: plugins that are registered, exports that
are created, and the sessions of clients.

## The model

* `Change`, `Change.Leads` — what is done to a library, and what it leads to.
* `Library.hands` — the slot of the table that `lwnbd_new_context` hands out on the way.
* `Reachable` — what a library can come to be from its start, and the slots handed out so far.
* `Kept` — the invariant: the table is a pool that has handed these slots out, and its strings end.

## What is proved

* `session_looks` — a session takes a context if it starts with the handshake, and changes only
  sizes besides.
* `Reachable.kept` — the invariant.
* `context_table` — the table has no holes, its count counts what was handed out, no slot is handed
  out twice, and the search finds the first context of a name.
-/

namespace LwNBD

open Resumption

/-! ### Sessions -/

section Session

variable {σ : Type} (env : Env Call Resp σ) (cfg : Config) (fuel : ℕ) (sock : ℤ)
  {s : Shared} (w : σ)

/-- The memory when a client's record has been initialised. -/
def Shared.opened (s : Shared) : Shared :=
  if s.ctx.preinit = 0 then { s with reg := (s.reg.newContext.map Prod.snd).getD s.reg } else s

theorem newContext_taken (h : s.reg.firstFree < MAX_CONTEXTS) :
    s.reg.newContext = some (⟨s.reg.firstFree, h⟩, (s.taken h).reg) := by
  have htake : Pool.take Registry.isFree .created s.reg.status =
      some (⟨s.reg.firstFree, h⟩, s.reg.status.set s.reg.firstFree .created) := dif_pos h
  rw [Registry.newContext, htake]
  rfl

/-- What a session leaves behind: the memory looks as when its client's record was initialised. -/
theorem session_looks :
    Looks s.opened ((nbdSynchronousClientThreadCb cfg fuel sock).run env s w).mem := by
  have hloop (c : NbdClient) (s : Shared) (w : σ) :
      Looks s ((Prog.loop fuel (sessionRound cfg fuel) c).run env s w).mem :=
    ((session_alike cfg fuel (.refl c)).run env (Sees.refl s) w).looks
  by_cases hpre : s.ctx.preinit = 0
  · rw [Shared.opened, if_pos hpre]
    by_cases hfree : s.reg.firstFree < MAX_CONTEXTS
    · rw [run_thread hpre hfree, newContext_taken hfree]
      exact hloop _ _ _
    · have hfull : s.reg.newContext = none :=
        Registry.newContext_eq_none.mpr (Nat.le_antisymm Pool.next_le (Nat.le_of_not_lt hfree))
      rw [run_thread_full hpre hfree, hfull]
      exact Looks.refl s
  · rw [Shared.opened, if_neg hpre]
    cases hdef : (env w .getDefaultexport).1 with
    | none =>
      simpa [nbdSynchronousClientThreadCb, clientInit, ctxNow, Prog.run_bind,
        Result.andThen, hpre, hdef] using Looks.refl s
    | some i =>
      simpa [nbdSynchronousClientThreadCb, clientInit, ctxNow, Prog.run_bind,
        Result.andThen, hpre, hdef] using hloop _ _ _

end Session

/-- One table is like another, but for the sizes of its contexts. -/
structure Registry.Resized (reg reg' : Registry) : Prop where
  /-- The contexts are as they were. -/
  contexts : ∀ i, reg'.get i = { reg.get i with exportsize := (reg'.get i).exportsize }
  /-- The same slots are taken. -/
  status : reg'.status = reg.status

theorem Registry.Resized.refl (reg : Registry) : reg.Resized reg := ⟨fun _ => rfl, rfl⟩

theorem Registry.Resized.contextsCount {reg reg' : Registry} (h : reg.Resized reg') :
    reg'.contextsCount = reg.contextsCount := by
  rw [Registry.contextsCount, Registry.firstFree, h.status]
  rfl

theorem Registry.Resized.announced {reg reg' : Registry} (h : reg.Resized reg') :
    reg'.announced = reg.announced := by
  rw [Registry.announced, Registry.announced, h.contextsCount]
  refine List.ext_getElem (by simp) fun i hi hi' => ?_
  have hlt : i < MAX_CONTEXTS := by
    rw [List.length_map, List.length_take, Vector.length_toList] at hi
    omega
  simp only [List.getElem_map, List.getElem_take, Vector.getElem_toList]
  change ((reg'.get ⟨i, hlt⟩).name, (reg'.get ⟨i, hlt⟩).description) = _
  rw [h.contexts ⟨i, hlt⟩]
  rfl

theorem Looks.reg {s s' : Shared} (h : Looks s s') : s.reg.Resized s'.reg := ⟨h.contexts, h.status⟩

/-! ### What is done to a library -/

/-- What changes the context table. -/
inductive Change where
  /-- `lwnbd_plugin_init` is called, and `init` returns a plugin or `NULL`. -/
  | pluginInit (init : Option LwnbdPlugin)
  /-- `lwnbd_plugin_new` is called, and the constructor does `ctor`. -/
  | pluginNew (plugin : UInt32) (ctor : CtorRun)
  /-- A client is served by the server instance `ctx`. -/
  | session (ctx : ContextNbd)

/-- What a change leads to. -/
def Change.Leads : Change → Library → Library → Prop
  | .pluginInit init, lib, lib' => ∃ i, lwnbdPluginInit lib init = .ret (i, lib')
  | .pluginNew plugin ctor, lib, lib' => ∃ r, lwnbdPluginNew lib plugin ctor = .ret (r, lib')
  | .session ctx, lib, lib' =>
    ∃ (σ : Type) (env : Env Call Resp σ) (w : σ) (cfg : Config) (fuel : ℕ) (sock : ℤ),
    lib' = { lib with reg :=
    ((nbdSynchronousClientThreadCb cfg fuel sock).run env ⟨ctx, lib.reg⟩ w).mem.reg }

/-- Whether `lwnbd_new_context` is called. -/
def Library.asks (lib : Library) : Change → Bool
  | .pluginInit init => lib.initAsks init
  | .pluginNew plugin _ => lib.newAsks plugin
  | .session ctx => ctx.preinit = 0

/-- The context it hands out. -/
def Library.hands (lib : Library) (ch : Change) : Option ContextIdx :=
  if lib.asks ch then lib.reg.newContext.map Prod.fst else none

/-- What is known of the context it is made. -/
def Change.Makes : Change → Context → Prop
  | .pluginInit _, c => c.p ≠ none
  | .pluginNew _ ctor, c => ctor.ret = 0 → c.p ≠ none
  | .session _, _ => True

/-- What a library can come to be, by changes of which `ok` holds, and the contexts handed out
so far. -/
inductive Reachable (ok : Library → Change → Prop) : Library → List ContextIdx → Prop where
  /-- It is as the loader leaves it. -/
  | start : Reachable ok .empty []
  /-- It is changed. -/
  | step {lib lib' : Library} {hs : List ContextIdx} {ch : Change} : Reachable ok lib hs →
      ok lib ch →
    ch.Leads lib lib' → Reachable ok lib' (hs ++ (lib.hands ch).toList)

section Library

variable {ok : Library → Change → Prop} {lib lib' : Library} {hs : List ContextIdx} {ch : Change}

/-- What a change does to the context table: it takes a context if it asks for one, writes
that context only, and changes only sizes besides. -/
theorem Change.Leads.takes (h : ch.Leads lib lib') :
    ∃ reg, lib.reg.Takes ch.Makes (lib.hands ch) reg ∧ reg.Resized lib'.reg := by
  cases ch with
  | pluginInit init =>
    obtain ⟨i, h⟩ := h
    exact ⟨_, pluginInit_reg h, .refl _⟩
  | pluginNew plugin ctor =>
    obtain ⟨r, h⟩ := h
    exact ⟨_, pluginNew_reg h, .refl _⟩
  | session ctx =>
    obtain ⟨σ, env, w, cfg, fuel, sock, rfl⟩ := h
    refine ⟨_, ?_, (session_looks env cfg fuel sock w).reg⟩
    by_cases hpre : ctx.preinit = 0
    · have hasks : lib.asks (.session ctx) = true := decide_eq_true hpre
      rw [Library.hands, if_pos hasks, Shared.opened, if_pos hpre]
      cases hn : lib.reg.newContext with
      | none => exact .none
      | some x =>
        have htakes : lib.reg.Takes (fun _ => True) (some x.1) (x.2.update x.1 id) :=
          .some hn (fun _ hc => hc) fun _ => trivial
        rw [Registry.update_id] at htakes
        exact htakes
    · have hasks : lib.asks (.session ctx) = false := decide_eq_false hpre
      rw [Library.hands, hasks, Shared.opened, if_neg hpre]
      exact .none

/-! ### The invariant -/

/-- The table is a pool that has handed out the slots `hs`, and its strings end within their
arrays. -/
structure Kept (reg : Registry) (hs : List ContextIdx) : Prop where
  /-- The slots. -/
  handed : Pool.Handed Registry.isFree .created reg.status hs
  /-- The strings. -/
  fits : ∀ i, (reg.get i).Fits

theorem kept_empty : Kept .empty [] where
  handed := .start fun i => by simp [Registry.empty, Registry.isFree]
  fits := fun i => by
    have hzero : Registry.empty.get i = .zero := by simp [Registry.empty, Registry.get]
    rw [hzero]
    decide

variable {reg reg' : Registry} {h : Option ContextIdx}

theorem Kept.takes {P : Context → Prop} (hk : Kept reg hs) (ht : reg.Takes P h reg') :
    Kept reg' (hs ++ h.toList) := by
  cases ht with
  | none =>
    rw [Option.toList_none, List.append_nil]
    exact hk
  | @some i reg₁ f hn hf hP =>
    refine ⟨.take hk.handed (Registry.newContext_eq_some hn).2.2, fun j => ?_⟩
    rw [Registry.get_update_newContext hn]
    split_ifs
    · exact hf _ (hk.fits i)
    · exact hk.fits j

theorem Kept.resized (hk : Kept reg hs) (h : reg.Resized reg') : Kept reg' hs where
  handed := by
    rw [h.status]
    exact hk.handed
  fits := fun i => by
    rw [h.contexts i]
    exact hk.fits i

/-- A change keeps the invariant. -/
theorem Kept.step (hk : Kept lib.reg hs) (hch : ch.Leads lib lib') :
    Kept lib'.reg (hs ++ (lib.hands ch).toList) := by
  obtain ⟨reg, ht, hr⟩ := hch.takes
  exact (hk.takes ht).resized hr

/-- The invariant holds of whatever a library can come to be. -/
theorem Reachable.kept (h : Reachable ok lib hs) : Kept lib.reg hs := by
  induction h with
  | start => exact kept_empty
  | step _ _ hch ih => exact ih.step hch

theorem Registry.Fresh.takes {P : Context → Prop} (hr : reg.Fresh) (ht : reg.Takes P h reg') :
    reg'.Fresh := by
  cases ht with
  | none => exact hr
  | @some k reg₁ f hn hf hP =>
    have hlt : (k : ℕ) < reg₁.contextsCount := by
      rw [(Registry.newContext_eq_some hn).1]
      exact Registry.contextsCount_lt hn
    intro i hi
    rw [Registry.contextsCount_update] at hi
    rw [Registry.get_update_newContext hn, if_neg fun (he : i = k) =>
      Nat.not_le_of_lt hlt (he ▸ hi)]
    exact hr i (Nat.le_trans (Nat.le_of_lt (Registry.contextsCount_lt hn)) hi)

theorem Registry.Fresh.resized (hr : reg.Fresh) (h : reg.Resized reg') : reg'.Fresh := by
  intro i hi
  rw [h.contexts i]
  exact hr i (by rwa [← h.contextsCount])

/-- The contexts that are still to be taken have no names. -/
theorem Reachable.fresh (h : Reachable ok lib hs) : lib.reg.Fresh := by
  induction h with
  | start =>
    intro i _
    simp [Library.empty, Registry.empty, Registry.get, Context.zero]
  | step _ _ hch ih =>
    obtain ⟨reg, ht, hr⟩ := hch.takes
    exact (ih.takes ht).resized hr

theorem Kept.contextsCount (hk : Kept reg hs) : reg.contextsCount = hs.length :=
  hk.handed.next_eq rfl

/-- The created slots are those that are counted. -/
theorem Kept.created_iff (hk : Kept reg hs) : reg.Gapless :=
  Registry.gapless_iff.mpr (hk.handed.gapless rfl).2

theorem Kept.name (hk : Kept reg hs) (i : ContextIdx) : IsCStr 32 (reg.get i).name := (hk.fits i).1

/-- `lwnbd_new_context` is out of slots when all have been handed out. -/
theorem Kept.newContext_eq_none (hk : Kept reg hs) :
    reg.newContext = none ↔ hs.length = MAX_CONTEXTS := by
  rw [Registry.newContext_eq_none, ← hk.contextsCount]
  rfl

theorem Kept.not_mem (hk : Kept reg hs) {i : ContextIdx} (hn : reg.newContext = some (i, reg')) :
    i ∉ hs := by
  have hnodup := (Pool.Handed.take hk.handed (Registry.newContext_eq_some hn).2.2).nodup rfl
  rw [List.nodup_append] at hnodup
  exact fun hi => hnodup.2.2 i hi i (List.mem_singleton.mpr rfl) rfl

theorem Kept.firstNamed_iff (hk : Kept reg hs) {name : Bytes} {i : ContextIdx} :
    reg.FirstNamed name i ↔ reg.Created i ∧ (reg.get i).name = name ∧ ∀ j < i, reg.Created j →
    (reg.get j).name ≠ name := by
  simp only [Registry.FirstNamed, hk.created_iff _, and_congr_right_iff]
  intro hi _
  exact ⟨fun hall j hj _ => hall j hj, fun hall j hj => hall j hj (Nat.lt_trans hj hi)⟩

end Library

/-- **The context table**, in whatever state it comes to be in. The created slots are the first
ones, and the count counts the contexts that were handed out. `lwnbd_new_context` hands out none
twice; when all were handed out it returns `NULL` and changes nothing. The search for a name, of
any length, finds the first created context that has it, and `NULL` if none has. -/
theorem context_table {lib : Library} {hs : List ContextIdx}
    (h : Reachable (fun _ _ => True) lib hs) :
    (∀ i : ContextIdx, lib.reg.Created i ↔ i < lib.reg.contextsCount) ∧
    lib.reg.contextsCount = hs.length ∧ hs.Nodup ∧
    (∀ (σ : Type) (env : Env Call Resp σ) (s : Shared) (w : σ), s.reg = lib.reg →
      let x := lwnbdNewContext.run env s w
      (hs.length < MAX_CONTEXTS → ∃ i, x.out = .ret (some i) ∧ i ∉ hs) ∧
        (hs.length = MAX_CONTEXTS → x.out = .ret none ∧ x.mem = s)) ∧
    ∀ name, 0 ∉ name →
      (∀ i, lib.reg.getContextString name = some i ↔ lib.reg.Created i ∧
      (lib.reg.get i).name = name ∧
        ∀ j < i, lib.reg.Created j → (lib.reg.get j).name ≠ name) ∧
      (lib.reg.getContextString name = none ↔
        ∀ i : ContextIdx, lib.reg.Created i → (lib.reg.get i).name ≠ name) := by
  have hk := h.kept
  refine ⟨hk.created_iff, hk.contextsCount, hk.handed.nodup rfl, ?_, ?_⟩
  · intro σ env s w hs' x
    have hx : x = _ := run_lwnbdNewContext env s w
    rw [hs'] at hx
    cases hn : lib.reg.newContext with
    | none =>
      have hfull := hk.newContext_eq_none.mp hn
      simp only [hn] at hx
      exact ⟨fun hlt => absurd hfull (Nat.ne_of_lt hlt), fun _ => by rw [hx]; exact ⟨rfl, rfl⟩⟩
    | some y =>
      simp only [hn] at hx
      refine ⟨fun _ => ⟨y.1, by rw [hx], hk.not_mem hn⟩, fun hfull => ?_⟩
      rw [hk.newContext_eq_none.mpr hfull] at hn
      cases hn
  · intro name hname
    refine ⟨fun i => ?_, ?_⟩
    · rw [Registry.getContextString_eq_some hk.name hname, hk.firstNamed_iff]
    · rw [Registry.getContextString_eq_none hk.name hname]
      simp only [hk.created_iff _]

namespace Sample

/-- A plugin whose exports have handles. -/
def memory : LwnbdPlugin := ⟨Sample.plugin, true, true, [109], by decide, 0⟩

/-- A constructor that names its context, and returns `ret`. -/
def named (ret : ℤ) (name : Bytes) (h : IsCStr 32 name) : CtorRun :=
  ⟨ret, fun c => { c with name := name }, fun _ hc => ⟨h, hc.2⟩⟩

/-- The library when the plugin is registered. -/
def registered : Library :=
  { Library.empty with
    plugins := Library.empty.plugins.set 0 (some memory)
    status := Library.empty.status.set 0 .created }

/-- The library when it has one export, named `a`. -/
def exporting : Library :=
  { registered with reg := (Registry.empty.mark slot).update slot fun _ =>
    ⟨0, some Sample.plugin, [97], [109], 0⟩ }

theorem isCStr_a : IsCStr 32 [97] := by decide

theorem registered_reachable : Reachable (fun _ _ => True) registered [] := by
  have hinit : (Change.pluginInit (some memory)).Leads .empty registered := ⟨0, by decide +kernel⟩
  have hands : Library.empty.hands (.pluginInit (some memory)) = none := by decide +kernel
  have h : Reachable (fun _ _ => True) registered _ := .step .start trivial hinit
  rw [hands] at h
  exact h

theorem exporting_reachable : Reachable (fun _ _ => True) exporting [slot] := by
  have hnew : (Change.pluginNew 0 (named 0 [97] isCStr_a)).Leads registered exporting :=
    ⟨0, by decide +kernel⟩
  have hands : registered.hands (.pluginNew 0 (named 0 [97] isCStr_a)) = some slot := by
    decide +kernel
  have h : Reachable (fun _ _ => True) exporting _ := .step registered_reachable trivial hnew
  rw [hands] at h
  exact h

/-- `context_table`, with one export. -/
theorem context_table_exporting : exporting.reg.contextsCount = [slot].length :=
  (context_table exporting_reachable).2.1

end Sample

end LwNBD
