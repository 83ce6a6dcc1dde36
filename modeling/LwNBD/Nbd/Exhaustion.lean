import LwNBD.Nbd.Leaks

/-!
# When there are no more contexts

`lwnbd_new_context` returns `NULL` when all `MAX_CONTEXTS` contexts were handed out. Of its three
callers the thread that serves a client looks at what it got, and returns. `lwnbd_plugin_init`
looks, prints a line and goes on, and `lwnbd_plugin_new` does not look: they write a context that is
`NULL`.

## The model

* `Change.Refused`, `Reports` — what is expected of a change that finds no context.
* `Change.Checks` — the change looks at what it gets.

## What is proved

* `reports_iff` — what becomes of a change in any table.
* `exhaustion_reported_iff` — whatever was done to the library, a change reports that there are no
  contexts left exactly if it looks at what it gets, or does not ask, or there are some left.
-/

namespace LwNBD

open Resumption

/-! ### What is expected -/

/-- The change returns `-1`, and leaves everything: no slot is taken, of the plugins or of the
contexts, and no context is written. -/
def Change.Refused (lib : Library) : Change → Prop
  | .pluginInit init => lwnbdPluginInit lib init = .ret (-1, lib)
  | .pluginNew plugin ctor => lwnbdPluginNew lib plugin ctor = .ret (-1, lib)
  | .session ctx =>
    ∀ (σ : Type) (env : Env Call Resp σ) (w : σ) (cfg : Config) (fuel : ℕ) (sock : ℤ),
    let x := (nbdSynchronousClientThreadCb cfg fuel sock).run env ⟨ctx, lib.reg⟩ w
    x.out = .ret (-1) ∧ x.mem = ⟨ctx, lib.reg⟩

/-- That there are no contexts left is reported: a change that asks for one is refused, so that
nothing is done with a context that is `NULL`. -/
def Reports (lib : Library) (ch : Change) : Prop :=
  lib.asks ch = true → lib.reg.newContext = none → ch.Refused lib

/-- What looks at the context it gets: the thread that serves a client. -/
def Change.Checks : Change → Prop
  | .session _ => True
  | _ => False

/-! ### What becomes of a change -/

section Changes

variable {lib : Library} {hs : List ContextIdx}

/-- `lwnbd_plugin_init` writes a context that is `NULL`. -/
theorem pluginInit_starved {init : Option LwnbdPlugin} (hasks : lib.initAsks init = true)
    (hfull : lib.reg.newContext = none) : lwnbdPluginInit lib init = .halt .undefined := by
  obtain ⟨hroom, hinit⟩ := Bool.and_eq_true_iff.mp hasks
  obtain ⟨x, hx⟩ := Option.isSome_iff_exists.mp hroom
  obtain ⟨p, rfl, hp⟩ := (Option.any_eq_true _ _).mp hinit
  obtain ⟨hread, hwo⟩ := Bool.and_eq_true_iff.mp hp
  unfold lwnbdPluginInit
  simp only [hx]
  rw [if_pos hread, if_pos (beq_iff_eq.mp hwo), hfull]

theorem pluginNew_starved {plugin : UInt32} {ctor : CtorRun} (hasks : lib.newAsks plugin = true)
    (hfull : lib.reg.newContext = none) : lwnbdPluginNew lib plugin ctor = .halt .undefined := by
  obtain ⟨p, hp, hc⟩ := (Option.any_eq_true _ _).mp hasks
  obtain ⟨hctor, hwo⟩ := Bool.and_eq_true_iff.mp hc
  unfold lwnbdPluginNew
  simp only [hp, hfull]
  rw [if_neg (not_not_intro hctor), if_neg (bne_iff_ne.mp hwo)]

theorem session_refused {ctx : ContextNbd} (hpre : ctx.preinit = 0)
    (hfull : lib.reg.newContext = none) : (Change.session ctx).Refused lib := by
  intro σ env w cfg fuel sock
  have hnone : ¬ lib.reg.firstFree < MAX_CONTEXTS :=
    Nat.not_lt_of_le (Nat.le_of_eq (Registry.newContext_eq_none.mp hfull).symm)
  have hrun : (nbdSynchronousClientThreadCb cfg fuel sock).run env ⟨ctx, lib.reg⟩ w = _ :=
    run_thread_full hpre hnone
  rw [hrun]
  exact ⟨rfl, rfl⟩

/-- What asks and does not look at what it gets reports nothing when there are no contexts left. -/
theorem Change.not_reports {ch : Change} (hcheck : ¬ ch.Checks) (hasks : lib.asks ch = true)
    (hfull : lib.reg.newContext = none) : ¬ Reports lib ch := by
  intro h
  have hrefused := h hasks hfull
  cases ch with
  | pluginInit init =>
    rw [Change.Refused, pluginInit_starved hasks hfull] at hrefused
    cases hrefused
  | pluginNew plugin ctor =>
    rw [Change.Refused, pluginNew_starved hasks hfull] at hrefused
    cases hrefused
  | session ctx => exact hcheck trivial

/-- In any table a change reports that there are no contexts left exactly if it looks at what it
gets, does not ask, or there are some left. -/
theorem reports_iff {ch : Change} :
    Reports lib ch ↔ ch.Checks ∨ lib.asks ch = false ∨ lib.reg.newContext ≠ none := by
  constructor
  · intro h
    by_contra hno
    obtain ⟨hcheck, hrest⟩ := not_or.mp hno
    obtain ⟨hasks, hfull⟩ := not_or.mp hrest
    exact ch.not_reports hcheck (by simpa using hasks) (not_not.mp hfull) h
  · intro h hasks hfull
    rcases h with hcheck | hno | hsome
    · cases ch with
      | session ctx => exact session_refused (of_decide_eq_true hasks) hfull
      | pluginInit init => cases hcheck
      | pluginNew plugin ctor => cases hcheck
    · rw [hno] at hasks
      cases hasks
    · exact absurd hfull hsome

end Changes

/-- **When there are no more contexts.** Whatever calls of `lwnbd_plugin_init` and
`lwnbd_plugin_new`, and whatever sessions, came before, the next one reports that there are no
contexts left exactly if it is a session, or does not ask for one, or fewer than `MAX_CONTEXTS` of
them were handed out. -/
theorem exhaustion_reported_iff {lib : Library} {hs : List ContextIdx}
    (h : Reachable (fun _ _ => True) lib hs) (ch : Change) :
    Reports lib ch ↔ ch.Checks ∨ lib.asks ch = false ∨ hs.length < MAX_CONTEXTS := by
  have hle : hs.length ≤ MAX_CONTEXTS := by
    rw [← h.kept.contextsCount]
    exact Pool.next_le
  rw [reports_iff, ne_eq, h.kept.newContext_eq_none, Nat.lt_iff_le_and_ne, and_iff_right hle]

namespace Sample

/-- Any number of exports, as far as there are contexts for them. -/
def exports : ℕ → Library
  | 0 => registered
  | n + 1 => match lwnbdPluginNew (exports n) 0 (named 0 [97] isCStr_a) with
    | .ret (_, lib) => lib
    | .halt _ => exports n

theorem leads_exports {n : ℕ} {reg : Registry} (he : exports n = { registered with reg := reg })
    (hroom : reg.newContext ≠ none) :
    (Change.pluginNew 0 (named 0 [97] isCStr_a)).Leads (exports n) (exports (n + 1)) ∧
      ∃ reg', exports (n + 1) = { registered with reg := reg' } := by
  obtain ⟨⟨j, reg₁⟩, hn⟩ := Option.ne_none_iff_exists'.mp hroom
  have hp : (exports n).plugin 0 = some memory := by
    rw [he]
    rfl
  have hn : (exports n).reg.newContext = some (j, reg₁) := by rw [he, hn]
  have hctor : memory.ctor = true := rfl
  have hwo : memory.exportWithoutHandle ≠ 1 := by decide
  have hret : (named 0 [97] isCStr_a).ret = 0 := rfl
  have hlen : memory.longname.length < 64 := by decide
  have hrun : ∃ r lib, lwnbdPluginNew (exports n) 0 (named 0 [97] isCStr_a) = .ret (r, lib) := by
    unfold lwnbdPluginNew
    simp only [hp, hn]
    rw [if_neg (not_not_intro hctor), if_neg hwo, if_neg (not_not_intro hret), if_pos hlen]
    split_ifs
    · exact ⟨_, _, rfl⟩
    · exact ⟨_, _, rfl⟩
  obtain ⟨r, lib, hrun⟩ := hrun
  have hnext : exports (n + 1) = lib := by rw [exports, hrun]
  obtain ⟨j', reg', f, -, hlib, -, -⟩ := pluginNew_cases hp hctor hwo hrun
  refine ⟨⟨r, hnext ▸ hrun⟩, reg'.update j' f, ?_⟩
  rw [hnext, hlib, he]

theorem exports_reachable {n : ℕ} (hn : n ≤ MAX_CONTEXTS) :
    ∃ reg hs, exports n = { registered with reg := reg } ∧
  Reachable (fun _ _ => True) (exports n) hs ∧
      hs.length = n := by
  induction n with
  | zero => exact ⟨_, [], rfl, registered_reachable, rfl⟩
  | succ n ih =>
    obtain ⟨reg, hs, he, hreach, hlen⟩ := ih (Nat.le_of_succ_le hn)
    have hroom : (exports n).reg.newContext ≠ none := fun hnone => by
      have hfull := hreach.kept.newContext_eq_none.mp hnone
      omega
    obtain ⟨⟨j, reg₁⟩, hnew⟩ := Option.ne_none_iff_exists'.mp hroom
    have hasks : (exports n).asks (.pluginNew 0 (named 0 [97] isCStr_a)) = true := by
      rw [he]
      rfl
    have hhands : (exports n).hands (.pluginNew 0 (named 0 [97] isCStr_a)) = some j := by
      rw [Library.hands, if_pos hasks, hnew, Option.map_some]
    rw [he] at hroom
    obtain ⟨hleads, reg', he'⟩ := leads_exports he hroom
    refine ⟨reg', _, he', .step hreach trivial hleads, ?_⟩
    rw [hhands, List.length_append, hlen]
    rfl

/-- With fifty exports a session reports that no context is left, and a call for one more export
does not. -/
theorem exhaustion_reported_iff_fifty :
    Reports (exports 50) (.session Sample.ctx) ∧
    ¬ Reports (exports 50) (.pluginNew 0 (named 0 [97] isCStr_a)) := by
  obtain ⟨reg, hs, he, hreach, hlen⟩ := exports_reachable (Nat.le_refl MAX_CONTEXTS)
  have hasks : (exports MAX_CONTEXTS).asks (.pluginNew 0 (named 0 [97] isCStr_a)) = true := by
    rw [he]
    rfl
  refine ⟨(exhaustion_reported_iff hreach _).mpr (.inl trivial), fun h => ?_⟩
  rcases (exhaustion_reported_iff hreach _).mp h with hchecks | hno | hlt
  · exact hchecks
  · rw [hasks] at hno
    cases hno
  · exact absurd hlen (Nat.ne_of_lt hlt)

/-- A plugin of which the exports have no handles. -/
def command : LwnbdPlugin := ⟨Sample.plugin, true, true, [99], by decide, 1⟩

/-- **With fifty exports** a call for one more, and the registration of a plugin that has the export
`api`, write a context that is `NULL`. -/
theorem exhaustion_not_reported :
    (∃ hs, Reachable (fun _ _ => True) (exports 50) hs) ∧
    ¬ Reports (exports 50) (.pluginNew 0 (named 0 [97] isCStr_a)) ∧
    ¬ Reports (exports 50) (.pluginInit (some command)) := by
  obtain ⟨reg, hs, he, hreach, hlen⟩ := exports_reachable (Nat.le_refl MAX_CONTEXTS)
  have hfull := hreach.kept.newContext_eq_none.mpr hlen
  have hnew : (exports MAX_CONTEXTS).asks (.pluginNew 0 (named 0 [97] isCStr_a)) = true := by
    rw [he]
    rfl
  have hinit : (exports MAX_CONTEXTS).asks (.pluginInit (some command)) = true := by
    rw [he]
    show registered.initAsks (some command) = true
    decide +kernel
  exact ⟨⟨hs, hreach⟩, Change.not_reports id hnew hfull, Change.not_reports id hinit hfull⟩

end Sample

end LwNBD
