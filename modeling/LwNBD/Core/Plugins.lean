import LwNBD.Core.Table

/-!
# Plugins

`src/plugins.c`: how plugins are registered, and how they create contexts.

## The model

* `LwnbdPlugin`, `Library` — a plugin as it is registered, and the static arrays of `plugins.c`
  and `contexts.c`.
* `CtorRun` — what a run of a plugin's constructor does: it fills the context it is given as it
  likes, with strings that end within their arrays, and returns what it likes.
* `lwnbdPluginInit`, `lwnbdPluginNew` — the calls that create contexts. `strcpy` past the end of an
  array, and a context that is `NULL`, are `.undefined`. What `load` does is the plugin's own
  affair, and left out.

## What is proved

* `pluginInit_reg`, `pluginNew_reg` — what the calls do to the context table: they take a context
  if they ask for one, and write no other.
-/

namespace LwNBD

open Resumption

/-! ### Plugins -/

/-- `MAX_NUM_PLUGINS`. -/
def MAX_NUM_PLUGINS : ℕ := 10

/-- `lwnbd_plugin_t`, as `lwnbd_plugin_init` is given it. -/
structure LwnbdPlugin extends Plugin where
  /-- Whether `pread` is set. -/
  pread : Bool
  /-- Whether `ctor` is set. -/
  ctor : Bool
  /-- `longname`, a C string. -/
  longname : Bytes
  /-- It has no `NUL`. -/
  longname_nul : 0 ∉ longname
  /-- `export_without_handle`. -/
  exportWithoutHandle : ℤ
  deriving DecidableEq

/-- `plugin_state_t`. -/
inductive PluginState where
  /-- `PLUGIN_FREE`. -/
  | free
  /-- `PLUGIN_CREATED`. -/
  | created
  deriving DecidableEq, Repr

/-- The static arrays of `contexts.c` and `plugins.c`. -/
structure Library where
  /-- The context table. -/
  reg : Registry
  /-- `plugins`. -/
  plugins : Vector (Option LwnbdPlugin) MAX_NUM_PLUGINS
  /-- `plugins_status`. -/
  status : Vector PluginState MAX_NUM_PLUGINS
  deriving DecidableEq

/-- The library as the loader leaves it. -/
def Library.empty : Library := ⟨.empty, .replicate _ none, .replicate _ .free⟩

/-- `plugins[plugin]`, none if it is `NULL` or there is no such element. -/
def Library.plugin (lib : Library) (plugin : UInt32) : Option LwnbdPlugin :=
  lib.plugins[plugin.toNat]?.join

/-- What a run of `p->ctor(pconfig, c)` does. -/
structure CtorRun where
  /-- What it returns. -/
  ret : ℤ
  /-- What it makes of the context. -/
  fill : Context → Context
  /-- It ends the strings. -/
  fits : ∀ c, c.Fits → (fill c).Fits

/-- `lwnbd_plugin_init`, where `init` returns the plugin, or none for `NULL`. -/
def lwnbdPluginInit (lib : Library) (init : Option LwnbdPlugin) : Outcome (UInt32 × Library) :=
  match Pool.take (· = .free) .created lib.status with
  | none => .ret (-1, lib)
  | some (i, status) =>
    match init with
    | none => .ret (-1, lib)
    | some p =>
      if p.pread then
        let lib := { lib with plugins := lib.plugins.set i (some p), status := status }
        if p.exportWithoutHandle = 1 then
          match lib.reg.newContext with
          | none => .halt .undefined
          | some (j, reg) =>
            if p.longname.length < 64 then
              let reg := reg.update j fun c => { c with
                handle := 0
                description := p.longname
                name := ['a'.toUInt8, 'p'.toUInt8, 'i'.toUInt8]
                p := some p.toPlugin }
              .ret (.ofNat i, { lib with reg := reg })
            else .halt .undefined
        else .ret (.ofNat i, lib)
      else .ret (-1, lib)

/-- `lwnbd_plugin_new`, where the constructor does `ctor`. -/
def lwnbdPluginNew (lib : Library) (plugin : UInt32) (ctor : CtorRun) : Outcome (ℤ × Library) :=
  match lib.plugin plugin with
  | none => .halt .undefined
  | some p =>
    if ¬p.ctor then .ret (-1, lib)
    else if p.exportWithoutHandle = 1 then .ret (if ctor.ret ≠ 0 then -1 else 0, lib)
    else
      match lib.reg.newContext with
      | none => .halt .undefined
      | some (j, reg) =>
        let reg := reg.update j fun c => ctor.fill { c with description := [] }
        if ctor.ret ≠ 0 then .ret (-1, { lib with reg := reg })
        else if (reg.get j).description ≠ [] then
          .ret (0, { lib with reg := reg.update j fun c => { c with p := some p.toPlugin } })
        else if p.longname.length < 64 then
          .ret (0, { lib with reg := reg.update j fun c =>
            { c with p := some p.toPlugin, description := p.longname } })
        else .halt .undefined

/-- Whether `lwnbd_plugin_init` asks for a context. -/
def Library.initAsks (lib : Library) (init : Option LwnbdPlugin) : Bool :=
  (Pool.take (· = .free) .created lib.status).isSome && init.any fun p =>
    p.pread && p.exportWithoutHandle == 1

/-- Whether `lwnbd_plugin_new` does. -/
def Library.newAsks (lib : Library) (plugin : UInt32) : Bool :=
  (lib.plugin plugin).any fun p => p.ctor && p.exportWithoutHandle != 1

/-- One context is taken, and made one of which `P` holds, with strings that end; or none is. -/
inductive Registry.Takes (reg : Registry) (P : Context → Prop) :
    Option ContextIdx → Registry → Prop where
  /-- None. -/
  | none : reg.Takes P none reg
  /-- One, and it is written. -/
  | some {i : ContextIdx} {reg' : Registry} {f : Context → Context} : reg.newContext =
      some (i, reg') →
    (∀ c, c.Fits → (f c).Fits) → (∀ c, P (f c)) → reg.Takes P (some i) (reg'.update i f)

section Calls

variable {lib lib' : Library} {init : Option LwnbdPlugin} {plugin : UInt32} {ctor : CtorRun}

theorem isCStr_api : IsCStr 32 ['a'.toUInt8, 'p'.toUInt8, 'i'.toUInt8] := by decide

theorem fits_longname {p : LwnbdPlugin} (h : p.longname.length < 64) : IsCStr 64 p.longname :=
  ⟨p.longname_nul, h⟩

/-- What `lwnbd_plugin_init` does to the context table. -/
theorem pluginInit_reg {i : UInt32} (h : lwnbdPluginInit lib init = .ret (i, lib')) :
    lib.reg.Takes (fun c => c.p ≠ none) (if lib.initAsks init then lib.reg.newContext.map Prod.fst
      else none)
      lib'.reg := by
  unfold Library.initAsks
  unfold lwnbdPluginInit at h
  cases ht : Pool.take (· = .free) .created lib.status with
  | none =>
    simp only [ht] at h
    cases h
    exact .none
  | some x =>
    obtain ⟨k, status⟩ := x
    cases init with
    | none =>
      simp only [ht] at h
      cases h
      exact .none
    | some p =>
      simp only [ht, Option.isSome_some, Option.any_some, Bool.true_and,
        Bool.and_eq_true, beq_iff_eq] at h ⊢
      by_cases hread : p.pread = true
      · rw [if_pos hread] at h
        by_cases hwo : p.exportWithoutHandle = 1
        · rw [if_pos hwo] at h
          rw [if_pos ⟨hread, hwo⟩]
          cases hn : lib.reg.newContext with
          | none =>
            simp only [hn] at h
            cases h
          | some y =>
            obtain ⟨j, reg⟩ := y
            simp only [hn] at h
            by_cases hlen : p.longname.length < 64
            · rw [if_pos hlen] at h
              cases h
              have hfits : ∀ c : Context, c.Fits → { c with
                  handle := 0
                  description := p.longname
                  name := ['a'.toUInt8, 'p'.toUInt8, 'i'.toUInt8]
                  p := some p.toPlugin }.Fits := fun c _ => ⟨isCStr_api, fits_longname hlen⟩
              exact .some hn hfits fun _ => Option.some_ne_none _
            · rw [if_neg hlen] at h
              cases h
        · rw [if_neg hwo] at h
          rw [if_neg fun hc => hwo hc.2]
          cases h
          exact .none
      · rw [if_neg hread] at h
        rw [if_neg fun hc => hread hc.1]
        cases h
        exact .none

/-- What `lwnbd_plugin_init` does to the plugins: it fails and leaves them, or takes a slot for
one. -/
theorem pluginInit_plugins {i : UInt32} (h : lwnbdPluginInit lib init = .ret (i, lib')) :
    i = -1 ∧ lib' = lib ∨ ∃ (k : Fin MAX_NUM_PLUGINS) (p : LwnbdPlugin), i = .ofNat k ∧
    lib.status.get k = .free ∧
      lib'.plugins = lib.plugins.set k (some p) k.isLt ∧
      lib'.status = lib.status.set k .created k.isLt := by
  unfold lwnbdPluginInit at h
  cases ht : Pool.take (· = .free) .created lib.status with
  | none =>
    simp only [ht] at h
    cases h
    exact .inl ⟨rfl, rfl⟩
  | some x =>
    obtain ⟨k, status⟩ := x
    obtain ⟨hk, rfl⟩ := Pool.take_eq_some ht
    have htaken := Pool.free_of_take ht
    have hfree : lib.status.get k = .free := of_decide_eq_true htaken
    cases init with
    | none =>
      simp only [ht] at h
      cases h
      exact .inl ⟨rfl, rfl⟩
    | some p =>
      simp only [ht] at h
      by_cases hread : p.pread = true
      · rw [if_pos hread] at h
        right
        by_cases hwo : p.exportWithoutHandle = 1
        · rw [if_pos hwo] at h
          cases hn : lib.reg.newContext with
          | none =>
            simp only [hn] at h
            cases h
          | some y =>
            simp only [hn] at h
            split_ifs at h
            cases h
            exact ⟨k, p, rfl, hfree, rfl, rfl⟩
        · rw [if_neg hwo] at h
          cases h
          exact ⟨k, p, rfl, hfree, rfl, rfl⟩
      · rw [if_neg hread] at h
        cases h
        exact .inl ⟨rfl, rfl⟩

/-- What `lwnbd_plugin_new` does with a plugin that has handles and a constructor: it takes a
context, lets the constructor fill it, and gives it its plugin if the constructor succeeded. -/
theorem pluginNew_cases {r : ℤ} {p : LwnbdPlugin} (hp : lib.plugin plugin = some p)
    (hctor : p.ctor = true) (hwo : p.exportWithoutHandle ≠ 1)
    (h : lwnbdPluginNew lib plugin ctor = .ret (r, lib')) :
    ∃ j reg f, lib.reg.newContext = some (j, reg) ∧ lib' = { lib with reg := reg.update j f } ∧
      (∀ c, c.Fits → (f c).Fits) ∧
      (ctor.ret ≠ 0 ∧ r = -1 ∨ ctor.ret = 0 ∧ r = 0 ∧ ∀ c, (f c).p = some p.toPlugin) := by
  have hfill (c : Context) (hc : c.Fits) : (ctor.fill { c with description := [] }).Fits :=
    ctor.fits _ ⟨hc.1, List.not_mem_nil, Nat.zero_lt_succ _⟩
  unfold lwnbdPluginNew at h
  simp only [hp] at h
  rw [if_neg (by simpa using hctor), if_neg hwo] at h
  cases hn : lib.reg.newContext with
  | none =>
    simp only [hn] at h
    cases h
  | some x =>
    obtain ⟨j, reg⟩ := x
    simp only [hn] at h
    by_cases hret : ctor.ret = 0
    · rw [if_neg (not_not_intro hret), Registry.update_update, Registry.update_update] at h
      split_ifs at h with hdesc hlen
      · cases h
        exact ⟨j, reg, _, rfl, rfl, hfill, .inr ⟨hret, rfl, fun _ => rfl⟩⟩
      · cases h
        exact ⟨j, reg, _, rfl, rfl, fun c hc => ⟨(hfill c hc).1, fits_longname hlen⟩,
          .inr ⟨hret, rfl, fun _ => rfl⟩⟩
    · rw [if_pos hret] at h
      cases h
      exact ⟨j, reg, _, rfl, rfl, hfill, .inl ⟨hret, rfl⟩⟩

/-- When the constructor fails, the context stays, as the constructor has left it. -/
theorem pluginNew_failed {p : LwnbdPlugin} (hp : lib.plugin plugin = some p) (hctor : p.ctor = true)
    (hwo : p.exportWithoutHandle ≠ 1) (hret : ctor.ret ≠ 0) {j : ContextIdx} {reg : Registry}
    (hn : lib.reg.newContext = some (j, reg)) : lwnbdPluginNew lib plugin ctor =
      .ret (-1, { lib with reg := reg.update j fun c => ctor.fill { c with description := [] }
  }) := by
  unfold lwnbdPluginNew
  simp only [hp, hn]
  rw [if_neg (by simpa using hctor), if_neg hwo, if_pos hret]

/-- Any other plugin takes no context, and returns `0` only if its exports have no handles. -/
theorem pluginNew_of_not_asks (hasks : lib.newAsks plugin = false) {r : ℤ}
    (h : lwnbdPluginNew lib plugin ctor = .ret (r, lib')) :
    lib' = lib ∧ (r = 0 → ∃ p, lib.plugin plugin = some p ∧ p.exportWithoutHandle = 1) := by
  unfold lwnbdPluginNew at h
  unfold Library.newAsks at hasks
  cases hp : lib.plugin plugin with
  | none =>
    simp only [hp] at h
    cases h
  | some p =>
    simp only [hp] at h
    simp only [hp, Option.any_some, Bool.and_eq_false_iff, bne_eq_false_iff_eq] at hasks
    by_cases hctor : p.ctor = true
    · rcases hasks with hc | hwo
      · exact absurd hctor (by simp [hc])
      · rw [if_neg (by simpa using hctor), if_pos hwo] at h
        cases h
        exact ⟨rfl, fun _ => ⟨p, rfl, hwo⟩⟩
    · rw [if_pos hctor] at h
      cases h
      exact ⟨rfl, fun h0 => by cases h0⟩

theorem pluginNew_plugins {r : ℤ} (h : lwnbdPluginNew lib plugin ctor = .ret (r, lib')) :
    lib'.plugins = lib.plugins ∧ lib'.status = lib.status := by
  cases hasks : lib.newAsks plugin with
  | false =>
    rw [(pluginNew_of_not_asks hasks h).1]
    exact ⟨rfl, rfl⟩
  | true =>
    obtain ⟨p, hp, hc⟩ := (Option.any_eq_true _ _).mp hasks
    obtain ⟨hctor, hwo⟩ := Bool.and_eq_true_iff.mp hc
    obtain ⟨j, reg, f, -, rfl, -, -⟩ := pluginNew_cases hp hctor (bne_iff_ne.mp hwo) h
    exact ⟨rfl, rfl⟩

/-- What `lwnbd_plugin_new` does to the context table. -/
theorem pluginNew_reg {r : ℤ} (h : lwnbdPluginNew lib plugin ctor = .ret (r, lib')) :
    lib.reg.Takes (fun c => ctor.ret = 0 → c.p ≠ none)
      (if lib.newAsks plugin then lib.reg.newContext.map Prod.fst else none) lib'.reg := by
  cases hasks : lib.newAsks plugin with
  | false =>
    rw [(pluginNew_of_not_asks hasks h).1]
    exact .none
  | true =>
    obtain ⟨p, hp, hc⟩ : ∃ p, lib.plugin plugin = some p ∧
        (p.ctor && p.exportWithoutHandle != 1) = true := by
      simpa [Library.newAsks, Option.any_eq_true] using hasks
    obtain ⟨hctor, hwo⟩ : p.ctor = true ∧ p.exportWithoutHandle ≠ 1 := by simpa using hc
    obtain ⟨j, reg, f, hn, rfl, hfits, hout⟩ := pluginNew_cases hp hctor hwo h
    rw [hn]
    refine .some hn hfits fun c hret => ?_
    rcases hout with ⟨hne, -⟩ | ⟨-, -, hf⟩
    · exact absurd hret hne
    · rw [hf]
      exact Option.some_ne_none _

end Calls

end LwNBD
