import LwNBD.Core.Plugins
import LwNBD.Plugins.Instances
import LwNBD.Resumption.Rules
import LwNBD.Resumption.Twins

/-!
# Handles

A handle is an index of a table, of the plugins in `src/plugins.c` or of the servers in
`src/servers.c`, that `lwnbd_plugin_init` or `lwnbd_server_init` has returned. When these fail they
return `-1`, which is the largest number of the handle's type; no caller can tell, and none of the
calls that are handed a handle looks whether there is such an element. And of a server only `new` is
looked at when it is registered.

## The model

* `LwnbdServer`, `Tables` — a server as it is registered, and the tables.
* `Access` — what the calls do with them: an element is accessed, what it points to is read, a
  callback is called.
* `Op` — the calls that are handed a handle; `Op.prog` is each of them as a program. An element that
  is not there, a pointer that is `NULL`, and a callback that is not set are `.undefined`.
* `Allowed`, `Harmless` — what is expected of them.
* `Reached` — the tables after any sequence of calls, and the handles that were returned.

## What is proved

* `Reached.sound` — a handle that was returned is `-1` or has an entry.
* `handles_harmless_iff` — when a call does as expected.
* `serverInit_pooled`, `serverStop_pooled` — servers whose `new` is `nbd_new` are those of
  `LwNBD.Plugins.Instances`.
-/

namespace LwNBD.Api

open Resumption

/-! ### The tables -/

/-- `struct lwnbd_server`: which one, and which callbacks it has. -/
structure LwnbdServer where
  /-- Which server. -/
  id : ℕ
  /-- Whether `new` is set. -/
  new : Bool
  /-- Whether `stop` is set. -/
  stop : Bool
  /-- Whether `config` is set. -/
  config : Bool
  /-- Whether `ctor` is set. -/
  ctor : Bool
  /-- Whether `run` is set. -/
  run : Bool
  deriving DecidableEq

/-- What `lwnbd_plugin_config` reads of a plugin. -/
structure PluginConfig where
  /-- Whether `config` is set. -/
  config : Bool
  /-- `magic_config_key`, none if it is `NULL`. -/
  magicConfigKey : Option Bytes

/-- `struct server_instance`. -/
structure ServerInstance where
  /-- `handle`, an opaque pointer. -/
  handle : Handle
  /-- `s`, none if it is `NULL`. -/
  s : Option LwnbdServer
  deriving DecidableEq

/-- The static arrays of `contexts.c`, `plugins.c` and `servers.c`. -/
structure Tables where
  /-- Those of `contexts.c` and `plugins.c`. -/
  lib : Library
  /-- `servers`. -/
  servers : Vector ServerInstance MAX_NUM_SERVERS
  /-- `servers_status`. -/
  status : Vector ServerState MAX_NUM_SERVERS
  deriving DecidableEq

/-- The tables as the loader leaves them. -/
def Tables.empty : Tables := ⟨.empty, .replicate _ ⟨0, none⟩, .replicate _ .free⟩

/-- The plugin that is registered in element `i`. -/
def Tables.plugin? (t : Tables) (i : ℕ) : Option LwnbdPlugin :=
  if t.lib.status[i]? = some .created then t.lib.plugins[i]?.join else none

/-- The server that is registered in element `i`. -/
def Tables.server? (t : Tables) (i : ℕ) : Option LwnbdServer :=
  if t.status[i]? = some .free then none else t.servers[i]?.bind ServerInstance.s

/-! ### Accesses -/

/-- The tables. -/
inductive Table where
  | plugins | servers | serversStatus
  deriving DecidableEq

/-- How many elements they have. -/
def Table.size : Table → ℕ
  | .plugins => MAX_NUM_PLUGINS
  | .servers | .serversStatus => MAX_NUM_SERVERS

/-- The callbacks of a server that return an `int`. -/
inductive ServerCallback where
  | config | ctor | run | stop
  deriving DecidableEq

/-- Whether a server has a callback. -/
def LwnbdServer.has (s : LwnbdServer) : ServerCallback → Bool
  | .config => s.config
  | .ctor => s.ctor
  | .run => s.run
  | .stop => s.stop

/-- What is done with the tables. The arguments of a callback are left out. -/
inductive Access where
  /-- Element `i` is accessed. -/
  | index (t : Table) (i : ℕ)
  /-- What element `i` points to is read. -/
  | entry (t : Table) (i : ℕ)
  /-- `ctor` of the plugin of element `i` is called. -/
  | pluginCtor (i : ℕ)
  /-- `config` of it is. -/
  | pluginConfig (i : ℕ)
  /-- `new` of a server is. -/
  | serverNew (s : LwnbdServer)
  /-- Another callback of the server of element `i` is. -/
  | server (i : ℕ) (cb : ServerCallback)
  deriving DecidableEq

/-- What a callback returns, or does. -/
abbrev AccessResp : Access → Type
  | .index .. | .entry .. => Unit
  | .pluginCtor _ => CtorRun
  | .pluginConfig _ | .server .. => ℤ
  | .serverNew _ => Handle

/-- A program over the tables. -/
abbrev Program (α : Type) := Prog Tables Access AccessResp α

/-! ### The calls -/

/-- `plugins[plugin]`, and what it points to. -/
def pluginAt (plugin : UInt32) : Program LwnbdPlugin := do
  Prog.perform (Access.index .plugins plugin.toNat)
  match (← Prog.read).lib.plugins[plugin.toNat]? with
  | none => .halt .undefined
  | some p? => do
    Prog.perform (Access.entry .plugins plugin.toNat)
    match p? with
    | none => .halt .undefined
    | some p => pure p

/-- `servers[handle].s`. -/
def instanceAt (handle : UInt32) : Program (Option LwnbdServer) := do
  Prog.perform (Access.index .servers handle.toNat)
  match (← Prog.read).servers[handle.toNat]? with
  | none => .halt .undefined
  | some si => pure si.s

/-- What it points to. -/
def serverAt (handle : UInt32) (s? : Option LwnbdServer) : Program LwnbdServer := do
  Prog.perform (Access.entry .servers handle.toNat)
  match s? with
  | none => .halt .undefined
  | some s => pure s

/-- A callback is called. -/
def callServer (handle : UInt32) (s : LwnbdServer) (cb : ServerCallback) : Program ℤ := do
  let r ← Prog.perform (Access.server handle.toNat cb)
  if s.has cb then pure r else .halt .undefined

/-- `lwnbd_plugin_new`. What it does after it has called the constructor is `lwnbdPluginNew`. -/
def pluginNew (plugin : UInt32) : Program ℤ := do
  let p ← pluginAt plugin
  let t ← Prog.read
  if ¬p.ctor then pure (-1)
  else if p.exportWithoutHandle ≠ 1 ∧ t.lib.reg.newContext = none then .halt .undefined
  else do
    let ctor ← Prog.perform (Access.pluginCtor plugin.toNat)
    match lwnbdPluginNew t.lib plugin ctor with
    | .ret (r, lib) => do
      Prog.modify fun t => { t with lib := lib }
      pure r
    | .halt h => .halt h

/-- `lwnbd_plugin_config`. A key may be `NULL`. -/
def pluginConfig (configOf : LwnbdPlugin → PluginConfig) (plugin : UInt32) (key : Option Bytes) :
    Program ℤ := do
  let p ← pluginAt plugin
  if ¬(configOf p).config then pure (-1)
  else match key <|> (configOf p).magicConfigKey with
    | none => pure (-1)
    | some _ => do
      let r ← Prog.perform (Access.pluginConfig plugin.toNat)
      pure (if r = -1 then -1 else 0)

/-- `lwnbd_server_config`. -/
def serverConfig (handle : UInt32) : Program ℤ := do
  let s ← serverAt handle (← instanceAt handle)
  if ¬s.config then pure (-1) else callServer handle s .config

/-- `lwnbd_server_new`. -/
def serverNew (handle : UInt32) : Program ℤ := do
  let s ← serverAt handle (← instanceAt handle)
  callServer handle s .ctor

/-- `lwnbd_server_run`, which returns nothing. -/
def serverRun (handle : UInt32) : Program Unit := do
  let s? ← instanceAt handle
  Prog.perform (Access.index .serversStatus handle.toNat)
  match (← Prog.read).status[handle.toNat]? with
  | none => .halt .undefined
  | some st =>
    if st ≠ .stopped then pure ()
    else do
      let s ← serverAt handle s?
      let _ ← callServer handle s .run

/-- `lwnbd_server_stop`. -/
def serverStop (handle : UInt32) : Program ℤ := do
  let s ← serverAt handle (← instanceAt handle)
  let _ ← callServer handle s .stop
  Prog.perform (Access.index .serversStatus handle.toNat)
  if h : handle.toNat < MAX_NUM_SERVERS then do
    Prog.modify fun t => { t with status := t.status.set handle.toNat .free }
    pure 0
  else .halt .undefined

/-- `lwnbd_server_init`, where `init` returns the server, or none for `NULL`. -/
def serverInit (init : Option LwnbdServer) : Program UInt32 := do
  let t ← Prog.read
  match Pool.take ServerState.isFree .stopped t.status with
  | none => pure (-1)
  | some (i, status) =>
    match init with
    | none => pure (-1)
    | some s =>
      if s.new then do
        let handle ← Prog.perform (Access.serverNew s)
        Prog.modify fun t =>
          { t with servers := t.servers.set i ⟨handle, s⟩ i.isLt, status := status }
        pure (.ofNat i)
      else pure (-1)

/-! ### What is expected -/

/-- A call that is handed a handle. -/
inductive Op where
  /-- `lwnbd_plugin_new`. -/
  | pluginNew (plugin : UInt32)
  /-- `lwnbd_plugin_config`. -/
  | pluginConfig (plugin : UInt32) (key : Option Bytes)
  /-- `lwnbd_server_config`. -/
  | serverConfig (handle : UInt32)
  /-- `lwnbd_server_new`. -/
  | serverNew (handle : UInt32)
  /-- `lwnbd_server_run`. -/
  | serverRun (handle : UInt32)
  /-- `lwnbd_server_stop`. -/
  | serverStop (handle : UInt32)

variable (configOf : LwnbdPlugin → PluginConfig)

/-- The call, and its result, none if it has none. -/
def Op.prog : Op → Program (Option ℤ)
  | .pluginNew plugin => do return some (← Api.pluginNew plugin)
  | .pluginConfig plugin key => do return some (← Api.pluginConfig configOf plugin key)
  | .serverConfig handle => do return some (← Api.serverConfig handle)
  | .serverNew handle => do return some (← Api.serverNew handle)
  | .serverRun handle => do
    Api.serverRun handle
    return none
  | .serverStop handle => do return some (← Api.serverStop handle)

/-- The table that the handle is an index of. -/
def Op.table : Op → Table
  | .pluginNew _ | .pluginConfig .. => .plugins
  | _ => .servers

/-- The handle. -/
def Op.handle : Op → UInt32
  | .pluginNew handle | .pluginConfig handle _ | .serverConfig handle | .serverNew
      handle | .serverRun handle
  | .serverStop handle => handle

/-- The result that reports an error. -/
def Op.error : Op → Option ℤ
  | .serverRun _ => none
  | _ => some (-1)

/-- What may be done with the tables: elements are accessed that are there, only what is registered
is read, and only callbacks that are set are called. -/
def Allowed (t : Tables) : Access → Prop
  | .index table i => i < table.size
  | .entry .plugins i => t.plugin? i ≠ none
  | .entry _ i => t.server? i ≠ none
  | .pluginCtor i => ∃ p, t.plugin? i = some p ∧ p.ctor = true
  | .pluginConfig i => ∃ p, t.plugin? i = some p ∧ (configOf p).config = true
  | .serverNew s => s.new = true
  | .server i cb => ∃ s, t.server? i = some s ∧ s.has cb = true

/-- There is something registered that the call can do its work with. -/
def Op.Serves (t : Tables) : Op → Prop
  | .pluginNew plugin => ∃ p, t.plugin? plugin.toNat = some p ∧ p.ctor = true
  | .pluginConfig plugin _ => ∃ p, t.plugin? plugin.toNat = some p ∧ (configOf p).config = true
  | .serverConfig handle => ∃ s, t.server? handle.toNat = some s ∧ s.config = true
  | .serverNew handle => ∃ s, t.server? handle.toNat = some s ∧ s.ctor = true
  | .serverRun handle => ∃ s, t.server? handle.toNat = some s ∧ s.run = true
  | .serverStop handle => ∃ s, t.server? handle.toNat = some s ∧ s.stop = true

/-- The handle is not `-1`, and its entry is as the call needs it: a server is registered, and has
the callbacks that are called without a look. -/
def Op.Backed (t : Tables) (op : Op) : Prop := op.handle ≠ -1 ∧ match op with
  | .pluginNew _ | .pluginConfig .. => True
  | .serverConfig handle => t.server? handle.toNat ≠ none
  | .serverNew handle => ∃ s, t.server? handle.toNat = some s ∧ s.ctor = true
  | .serverRun handle => ∀ s, t.server? handle.toNat = some s → s.run = true
  | .serverStop handle => ∃ s, t.server? handle.toNat = some s ∧ s.stop = true

/-- What is expected of a call: it does with the tables what may be done, and reports an error if
there is nothing it can do its work with. -/
def Harmless (t : Tables) (op : Op) : Prop :=
  ∀ (σ : Type) (env : Env Access AccessResp σ) (w : σ), wp env (op.prog configOf)
    (fun o _ _ h => (∀ e ∈ calls h, Allowed configOf t e) ∧
    (¬ op.Serves configOf t → o = .ret op.error)) t w

/-! ### Any sequence of calls -/

/-- The handle is one of those that were returned. -/
def Op.Given (plugins servers : List UInt32) (op : Op) : Prop :=
  op.handle ∈ if op.table = .plugins then plugins else servers

/-- What the tables can come to be, and the handles that `lwnbd_plugin_init` and `lwnbd_server_init`
have returned. -/
inductive Reached : Tables → List UInt32 → List UInt32 → Prop where
  /-- They are as the loader leaves them. -/
  | start : Reached .empty [] []
  /-- `lwnbd_plugin_init` is called. -/
  | pluginInit {t : Tables} {plugins servers : List UInt32} {i : UInt32} {lib : Library}
    (init : Option LwnbdPlugin) : Reached t plugins servers →
    lwnbdPluginInit t.lib init = .ret (i, lib) →
    Reached { t with lib := lib } (i :: plugins) servers
  /-- `lwnbd_server_init` is. -/
  | serverInit {t : Tables} {plugins servers : List UInt32} {i : UInt32} {σ : Type}
    (env : Env Access AccessResp σ) (w : σ) (init : Option LwnbdServer) :
    Reached t plugins servers → ((Api.serverInit init).run env t w).out = .ret i →
    Reached ((Api.serverInit init).run env t w).mem plugins (i :: servers)
  /-- A call is handed a handle that was returned. -/
  | call {t : Tables} {plugins servers : List UInt32} {r : Option ℤ} {σ : Type}
    (env : Env Access AccessResp σ) (w : σ) (op : Op) : Reached t plugins servers →
    op.Given plugins servers → ((op.prog configOf).run env t w).out = .ret r →
    Reached ((op.prog configOf).run env t w).mem plugins servers

/-- A handle that was returned is `-1`, or has an entry. An entry of the servers stays when the
server is stopped. -/
structure Sound (t : Tables) (plugins servers : List UInt32) : Prop where
  /-- The plugins are registered. -/
  plugin : ∀ h ∈ plugins, h ≠ -1 → ∃ p, t.plugin? h.toNat = some p
  /-- The servers were. -/
  server : ∀ h ∈ servers, h ≠ -1 → ∃ si s, t.servers[h.toNat]? = some si ∧ si.s = some s
  /-- None is started. -/
  started : ∀ i : ℕ, t.status[i]? ≠ some ServerState.started

section Sound

variable {configOf} {t : Tables} {plugins servers : List UInt32}

/-- `lwnbd_plugin_init` leaves the plugins that are registered. -/
theorem plugin?_pluginInit {init : Option LwnbdPlugin} {i : UInt32} {lib : Library}
    (h : lwnbdPluginInit t.lib init = .ret (i, lib)) {j : ℕ} {p : LwnbdPlugin}
    (hp : t.plugin? j = some p) : ({ t with lib := lib } : Tables).plugin? j = some p := by
  rcases pluginInit_plugins h with ⟨-, rfl⟩ | ⟨k, q, -, hfree, hplugins, hstatus⟩
  · exact hp
  · unfold Tables.plugin? at hp ⊢
    dsimp only
    rw [hplugins, hstatus]
    have hne : k.val ≠ j := by
      rintro rfl
      split_ifs at hp with hst
      rw [Vector.getElem?_eq_getElem k.isLt] at hst
      have := hfree.symm.trans (Option.some.inj hst)
      cases this
    rw [Vector.getElem?_set_ne k.isLt hne, Vector.getElem?_set_ne k.isLt hne]
    exact hp

/-- What it returns is `-1`, or the handle of a plugin that is registered. -/
theorem pluginInit_registers {init : Option LwnbdPlugin} {i : UInt32} {lib : Library}
    (h : lwnbdPluginInit t.lib init = .ret (i, lib)) :
    i = -1 ∨ ∃ p, ({ t with lib := lib } : Tables).plugin? i.toNat = some p := by
  rcases pluginInit_plugins h with ⟨hi, -⟩ | ⟨k, q, rfl, -, hplugins, hstatus⟩
  · exact .inl hi
  · have hk : (UInt32.ofNat k).toNat = k := by
      rw [UInt32.toNat_ofNat']
      exact Nat.mod_eq_of_lt (Nat.lt_trans k.isLt (by decide))
    refine .inr ⟨q, ?_⟩
    unfold Tables.plugin?
    dsimp only
    rw [hk, hplugins, hstatus, Vector.getElem?_set_self k.isLt, Vector.getElem?_set_self k.isLt,
      if_pos rfl]
    rfl

theorem plugin?_pluginNew {plugin : UInt32} {ctor : CtorRun} {r : ℤ} {lib : Library}
    (h : lwnbdPluginNew t.lib plugin ctor = .ret (r, lib)) (j : ℕ) :
    ({ t with lib := lib } : Tables).plugin? j = t.plugin? j := by
  obtain ⟨hplugins, hstatus⟩ := pluginNew_plugins h
  unfold Tables.plugin?
  dsimp only
  rw [hplugins, hstatus]

/-! ### What the calls do -/

variable {σ : Type} (env : Env Access AccessResp σ) (w : σ) {handle plugin : UInt32}
  {si : ServerInstance} {s : LwnbdServer} {p : LwnbdPlugin}

theorem getElem?_of_plugin? (hp : t.plugin? plugin.toNat = some p) :
    t.lib.plugins[plugin.toNat]? = some (some p) := by
  unfold Tables.plugin? at hp
  split_ifs at hp
  exact Option.join_eq_some_iff.mp hp

theorem wp_pluginAt (hp : t.plugin? plugin.toNat = some p) :
    wp env (pluginAt plugin) (fun o t' _ h => o = .ret p ∧ t' = t ∧
      calls h = [.index .plugins plugin.toNat, .entry .plugins plugin.toNat]) t w := by
  simp [-bind_pure_comp, pluginAt, wp, Prog.run_bind, Result.andThen, getElem?_of_plugin? hp]

theorem wp_pluginConfig (hp : t.plugin? plugin.toNat = some p) (key : Option Bytes) :
    wp env (Api.pluginConfig configOf plugin key) (fun o t' _ h => t' = t ∧
      ((configOf p).config = false → o = .ret (-1)) ∧
      (calls h = [.index .plugins plugin.toNat, .entry .plugins plugin.toNat] ∨
      (configOf p).config = true ∧
        calls h = [.index .plugins plugin.toNat, .entry .plugins plugin.toNat,
        .pluginConfig plugin.toNat])) t w := by
  unfold Api.pluginConfig
  rw [wp_bind]
  refine wp_mono env ?_ (wp_pluginAt env w hp)
  rintro o t' w' h ⟨rfl, rfl, hcalls⟩
  rw [Post.seq_ret]
  cases hc : (configOf p).config with
  | false => simp [hcalls]
  | true =>
    cases key <|> (configOf p).magicConfigKey with
    | none => simp [hcalls]
    | some k => simp [-bind_pure_comp, wp_bind, hcalls]

section Servers

variable {env w} {α : Type} {f : Option LwnbdServer → Program α} {g : LwnbdServer → Program α}
  {Q : Post Tables Access AccessResp σ α}

/-- What comes after an element that is there was accessed. -/
theorem wp_instanceAt (hsi : t.servers[handle.toNat]? = some si) :
    wp env (instanceAt handle >>= f) Q t w ↔
    wp env (f si.s) (Q.after [⟨.index .servers handle.toNat, ()⟩]) t
    (env w (.index .servers handle.toNat)).2 := by
  rw [wp_bind, instanceAt, wp_bind, wp_perform, Post.seq_ret, wp_bind, wp_read, Post.seq_ret, hsi]
  exact Iff.rfl

/-- What comes after a server that is there was read. -/
theorem wp_serverAt : wp env (serverAt handle (some s) >>= g) Q t w ↔
    wp env (g s) (Q.after [⟨.entry .servers handle.toNat, ()⟩]) t
    (env w (.entry .servers handle.toNat)).2 := by
  rw [wp_bind, serverAt, wp_bind, wp_perform, Post.seq_ret]
  exact Iff.rfl

theorem wp_callServer (cb : ServerCallback) {Q : Post Tables Access AccessResp σ ℤ}
    (hcb : s.has cb = true) :
    wp env (callServer handle s cb) Q t w ↔ Q (.ret (env w (.server handle.toNat cb)).1) t
      (env w (.server handle.toNat cb)).2
      [⟨.server handle.toNat cb, (env w (.server handle.toNat cb)).1⟩] := by
  rw [callServer, wp_bind, wp_perform, Post.seq_ret, if_pos hcb]
  exact Iff.rfl

/-- The call of one that is not there has no meaning. -/
theorem wp_callServer_none (cb : ServerCallback) {Q : Post Tables Access AccessResp σ ℤ}
    (hcb : s.has cb = false) : wp env (callServer handle s cb) Q t w ↔ Q (.halt .undefined) t
      (env w (.server handle.toNat cb)).2
      [⟨.server handle.toNat cb, (env w (.server handle.toNat cb)).1⟩] := by
  rw [callServer, wp_bind, wp_perform, Post.seq_ret, if_neg (by rw [hcb]; exact Bool.false_ne_true)]
  exact Iff.rfl

end Servers

theorem wp_serverConfig (hsi : t.servers[handle.toNat]? = some si) (hs : si.s = some s) :
    wp env (Api.serverConfig handle) (fun o t' _ h => t' = t ∧ (s.config = false → o = .ret (-1)) ∧
      calls h = [.index .servers handle.toNat, .entry .servers handle.toNat] ++
        if s.config then [.server handle.toNat .config] else []) t w := by
  rw [Api.serverConfig, wp_instanceAt hsi, hs, wp_serverAt]
  cases hc : s.config with
  | false => exact ⟨rfl, fun _ => rfl, rfl⟩
  | true => exact (wp_callServer .config hc).mpr ⟨rfl, fun hno => Bool.noConfusion hno, rfl⟩

theorem wp_serverNew (hsi : t.servers[handle.toNat]? = some si) (hs : si.s = some s) :
    wp env (Api.serverNew handle) (fun _ t' _ h => t' = t ∧ calls h = [.index .servers handle.toNat,
      .entry .servers handle.toNat, .server handle.toNat .ctor]) t w := by
  rw [Api.serverNew, wp_instanceAt hsi, hs, wp_serverAt]
  cases hc : s.ctor with
  | false => exact (wp_callServer_none .ctor hc).mpr ⟨rfl, rfl⟩
  | true => exact (wp_callServer .ctor hc).mpr ⟨rfl, rfl⟩

theorem wp_serverRun (hsi : t.servers[handle.toNat]? = some si)
    (hs : si.s = some s) {st : ServerState} (hst : t.status[handle.toNat]? = some st) :
    wp env (Api.serverRun handle) (fun o t' _ h => t' = t ∧ (st ≠ .stopped → o = .ret ()) ∧
      calls h = [.index .servers handle.toNat, .index .serversStatus handle.toNat] ++
        if st = .stopped then [.entry .servers handle.toNat, .server handle.toNat .run] else [])
        t w := by
  rw [Api.serverRun, wp_instanceAt hsi, wp_bind, wp_perform, Post.seq_ret, wp_bind,
    wp_read, Post.seq_ret, hst]
  dsimp only
  by_cases hstop : st = .stopped
  · rw [if_neg (not_not_intro hstop), hs, wp_serverAt, if_pos hstop, wp_bind]
    cases hc : s.run with
    | false => exact (wp_callServer_none .run hc).mpr ⟨rfl, fun hno => absurd hstop hno, rfl⟩
    | true => exact (wp_callServer .run hc).mpr ⟨rfl, fun hno => absurd hstop hno, rfl⟩
  · rw [if_pos hstop, if_neg hstop]
    exact ⟨rfl, fun _ => rfl, rfl⟩

theorem wp_serverStop (hsi : t.servers[handle.toNat]? = some si) (hs : si.s = some s) :
    wp env (Api.serverStop handle) (fun o t' _ h => (∀ r, o = .ret r →
        ∃ hlt : handle.toNat < MAX_NUM_SERVERS,
        t' = { t with status := t.status.set handle.toNat .free }) ∧
      calls h = [.index .servers handle.toNat, .entry .servers handle.toNat,
      .server handle.toNat .stop] ++
        if s.stop then [.index .serversStatus handle.toNat] else []) t w := by
  obtain ⟨hlt, -⟩ := Vector.getElem?_eq_some_iff.mp hsi
  rw [Api.serverStop, wp_instanceAt hsi, hs, wp_serverAt, wp_bind]
  cases hc : s.stop with
  | false => exact (wp_callServer_none .stop hc).mpr ⟨nofun, rfl⟩
  | true =>
    rw [wp_callServer .stop hc, Post.seq_ret, wp_bind, wp_perform, Post.seq_ret, dif_pos hlt]
    exact ⟨fun _ _ => ⟨hlt, rfl⟩, rfl⟩

theorem wp_pluginNew (hp : t.plugin? plugin.toNat = some p) :
    wp env (Api.pluginNew plugin) (fun o t' _ h =>
    (∀ r, o = .ret r → ∃ lib, (∀ j, ({ t with lib := lib } : Tables).plugin? j = t.plugin? j) ∧
      t' = { t with lib := lib }) ∧
    (p.ctor = false → o = .ret (-1)) ∧
    (calls h = [.index .plugins plugin.toNat, .entry .plugins plugin.toNat] ∨ p.ctor = true ∧
      calls h = [.index .plugins plugin.toNat, .entry .plugins plugin.toNat,
      .pluginCtor plugin.toNat])) t w := by
  unfold Api.pluginNew
  rw [wp_bind]
  refine wp_mono env ?_ (wp_pluginAt env w hp)
  rintro o t' w' h ⟨rfl, rfl, hcalls⟩
  rw [Post.seq_ret, wp_bind, wp_read, Post.seq_ret]
  cases hc : p.ctor with
  | false =>
    rw [if_pos Bool.false_ne_true, wp_pure]
    exact ⟨fun _ _ => ⟨_, fun _ => rfl, rfl⟩, fun _ => rfl, .inl (by simpa using hcalls)⟩
  | true =>
    rw [if_neg (not_not_intro rfl)]
    split_ifs
    · rw [wp_halt]
      exact ⟨nofun, nofun, .inl (by simpa using hcalls)⟩
    · rw [wp_bind, wp_perform, Post.seq_ret]
      cases hnew : lwnbdPluginNew t'.lib plugin (env w' (.pluginCtor plugin.toNat)).1 with
      | ret x =>
        obtain ⟨r, lib⟩ := x
        rw [wp_bind, wp_modify, Post.seq_ret, wp_pure]
        exact ⟨fun _ _ => ⟨lib, plugin?_pluginNew hnew, rfl⟩, nofun, .inr ⟨rfl, by simp [hcalls]⟩⟩
      | halt e =>
        rw [wp_halt]
        exact ⟨nofun, nofun, .inr ⟨rfl, by simp [hcalls]⟩⟩

/-! ### The invariant -/

/-- The tables later: what is registered stays, unless it is a server that is stopped, and no server
is started. -/
structure Later (t t' : Tables) : Prop where
  /-- The plugins stay. -/
  plugin : ∀ j p, t.plugin? j = some p → t'.plugin? j = some p
  /-- The entries of the servers do. -/
  server : ∀ (j : ℕ) (si : ServerInstance) (s : LwnbdServer), t.servers[j]? = some si →
    si.s = some s → ∃ si' s', t'.servers[j]? = some si' ∧ si'.s = some s'
  /-- None is started. -/
  started : ∀ i : ℕ, t'.status[i]? = some ServerState.started →
    t.status[i]? = some ServerState.started

theorem Later.refl (t : Tables) : Later t t :=
  ⟨fun _ _ h => h, fun _ _ _ h h' => ⟨_, _, h, h'⟩, fun _ h => h⟩

theorem Sound.later {t' : Tables} (h : Sound t plugins servers) (hl : Later t t') :
    Sound t' plugins servers where
  plugin := fun i hi hne => by
    obtain ⟨p, hp⟩ := h.plugin i hi hne
    exact ⟨p, hl.plugin _ _ hp⟩
  server := fun i hi hne => by
    obtain ⟨si, s, hsi, hs⟩ := h.server i hi hne
    exact hl.server _ _ _ hsi hs
  started := fun i hi => h.started i (hl.started i hi)

/-- `lwnbd_server_init` takes a slot that is free. -/
theorem wp_serverInit (init : Option LwnbdServer) : wp env (Api.serverInit init) (fun o t' _ _ =>
    (o = .ret (-1) ∧ t' = t) ∨ ∃ (i : Fin MAX_NUM_SERVERS) (handle : Handle) (s : LwnbdServer),
    o = .ret (.ofNat i) ∧
      t.status.get i = .free ∧ t' = { t with
        servers := t.servers.set i ⟨handle, some s⟩ i.isLt
        status := t.status.set i .stopped i.isLt }) t w := by
  unfold Api.serverInit
  rw [wp_bind, wp_read, Post.seq_ret, Post.after_nil]
  cases ht : Pool.take ServerState.isFree .stopped t.status with
  | none => exact .inl ⟨rfl, rfl⟩
  | some x =>
    obtain ⟨i, status⟩ := x
    obtain ⟨-, rfl⟩ := Pool.take_eq_some ht
    have htaken := Pool.free_of_take ht
    have hfree : t.status.get i = .free := of_decide_eq_true htaken
    cases init with
    | none => exact .inl ⟨rfl, rfl⟩
    | some s =>
      dsimp only
      split_ifs
      · rw [wp_bind, wp_perform, Post.seq_ret, wp_bind, wp_modify, Post.seq_ret, wp_pure]
        exact .inr ⟨i, _, s, rfl, hfree, rfl⟩
      · exact .inl ⟨rfl, rfl⟩

/-- An index of the table of servers, as a handle. -/
theorem toNat_ofNat_server (i : Fin MAX_NUM_SERVERS) : (UInt32.ofNat i).toNat = i := by
  rw [UInt32.toNat_ofNat']
  exact Nat.mod_eq_of_lt (Nat.lt_trans i.isLt (by decide))

theorem later_serverInit (i : Fin MAX_NUM_SERVERS) (handle : Handle) (s : LwnbdServer) :
    Later t { t with
    servers := t.servers.set i ⟨handle, some s⟩ i.isLt
    status := t.status.set i .stopped i.isLt } where
  plugin := fun _ _ h => h
  server := fun j si s' hsi hs => by
    dsimp only
    by_cases hj : i.val = j
    · subst hj
      exact ⟨_, s, Vector.getElem?_set_self i.isLt, rfl⟩
    · rw [Vector.getElem?_set_ne i.isLt hj]
      exact ⟨si, s', hsi, hs⟩
  started := fun j h => by
    dsimp only at h
    by_cases hj : i.val = j
    · subst hj
      rw [Vector.getElem?_set_self i.isLt] at h
      cases h
    · rwa [Vector.getElem?_set_ne i.isLt hj] at h

theorem later_serverStop {j : ℕ} (hlt : j < MAX_NUM_SERVERS) :
    Later t { t with status := t.status.set j .free } where
  plugin := fun _ _ h => h
  server := fun _ si s hsi hs => ⟨si, s, hsi, hs⟩
  started := fun i h => by
    dsimp only at h
    by_cases hj : j = i
    · subst hj
      rw [Vector.getElem?_set_self hlt] at h
      cases h
    · rwa [Vector.getElem?_set_ne hlt hj] at h

/-- The first access of a call is of the element of its handle. -/
theorem Op.index_mem (op : Op) (t : Tables) :
    Access.index op.table op.handle.toNat ∈ calls ((op.prog configOf).run env t w).trace := by
  cases op <;> exact List.mem_cons_self

/-- A call with a handle that is past the table does not return. -/
theorem Op.not_ret {op : Op} (h : op.table.size ≤ op.handle.toNat) (r : Option ℤ) :
    ((op.prog configOf).run env t w).out ≠ .ret r := by
  have hplugin (i : UInt32) (hi : MAX_NUM_PLUGINS ≤ i.toNat) : t.lib.plugins[i.toNat]? = none :=
    Vector.getElem?_eq_none hi
  have hserver (i : UInt32) (hi : MAX_NUM_SERVERS ≤ i.toNat) : t.servers[i.toNat]? = none :=
    Vector.getElem?_eq_none hi
  cases op with
  | pluginNew i =>
    simp [-bind_pure_comp, Op.prog, Api.pluginNew, pluginAt, Prog.run_bind,
      Result.andThen, hplugin i h]
  | pluginConfig i key =>
    simp [-bind_pure_comp, Op.prog, Api.pluginConfig, pluginAt, Prog.run_bind,
      Result.andThen, hplugin i h]
  | serverConfig i =>
    simp [-bind_pure_comp, Op.prog, Api.serverConfig, instanceAt, Prog.run_bind,
      Result.andThen, hserver i h]
  | serverNew i =>
    simp [-bind_pure_comp, Op.prog, Api.serverNew, instanceAt, Prog.run_bind,
      Result.andThen, hserver i h]
  | serverRun i =>
    simp [-bind_pure_comp, Op.prog, Api.serverRun, instanceAt, Prog.run_bind,
      Result.andThen, hserver i h]
  | serverStop i =>
    simp [-bind_pure_comp, Op.prog, Api.serverStop, instanceAt, Prog.run_bind,
      Result.andThen, hserver i h]

/-- The server of an entry is registered unless it was stopped. -/
theorem server?_eq (hsi : t.servers[handle.toNat]? = some si) (hs : si.s = some s) :
    t.server? handle.toNat = if t.status[handle.toNat]? = some .free then none else some s := by
  rw [Tables.server?, hsi, Option.bind_some, hs]

/-- What a call does with a handle that has an entry. -/
structure Does (configOf : LwnbdPlugin → PluginConfig) (t : Tables) (op : Op)
    (o : Outcome (Option ℤ)) (t' : Tables) (accesses : List Access) : Prop where
  /-- What is registered stays. -/
  later : ∀ r, o = .ret r → Later t t'
  /-- If the entry is as the call needs it, it does what may be done. -/
  allowed : op.Backed t → ∀ e ∈ accesses, Allowed configOf t e
  /-- And reports an error if it cannot do its work. -/
  error : op.Backed t → ¬ op.Serves configOf t → o = .ret op.error
  /-- If not, it does what may not be done. -/
  breaks : ¬ op.Backed t → ∃ e ∈ accesses, ¬ Allowed configOf t e

theorem does_of {α : Type} {f : α → Option ℤ} {p : Program α} {op : Op}
    {Q : Post Tables Access AccessResp σ α} (hw : wp env p Q t w)
    (later : ∀ r t' w' h, Q (.ret r) t' w' h → Later t t')
    (allowed : op.Backed t → ∀ o t' w' h, Q o t' w' h → ∀ e ∈ calls h, Allowed configOf t e)
    (error : op.Backed t → ¬ op.Serves configOf t → ∀ o t' w' h, Q o t' w' h → ∃ r, o = .ret r ∧
      f r = op.error) (breaks : ¬ op.Backed t → ∀ o t' w' h, Q o t' w' h →
      ∃ e ∈ calls h, ¬ Allowed configOf t e) :
    wp env (do return f (← p)) (fun o t' _ h => Does configOf t op o t' (calls h)) t w := by
  rw [wp_bind]
  refine wp_mono env ?_ hw
  intro o t' w' h hQ
  cases o with
  | ret r =>
    rw [Post.seq_ret, wp_pure, Post.after_apply, List.append_nil]
    refine ⟨fun _ _ => later r t' w' h hQ, fun hb => allowed hb _ t' w' h hQ, fun hb hns => ?_,
      fun hb => breaks hb _ t' w' h hQ⟩
    obtain ⟨r', hr, hf⟩ := error hb hns _ t' w' h hQ
    cases hr
    rw [hf]
  | halt e =>
    rw [Post.seq_halt]
    refine ⟨nofun, fun hb => allowed hb _ t' w' h hQ, fun hb hns => ?_,
      fun hb => breaks hb _ t' w' h hQ⟩
    obtain ⟨r', hr, -⟩ := error hb hns _ t' w' h hQ
    cases hr

theorem does_pluginNew (hp : t.plugin? plugin.toNat = some p) (hne : plugin ≠ -1) :
    wp env (Op.prog configOf (.pluginNew plugin))
    (fun o t' _ h => Does configOf t (.pluginNew plugin) o t' (calls h))
      t w := by
  have hlt : plugin.toNat < MAX_NUM_PLUGINS :=
    (Vector.getElem?_eq_some_iff.mp (getElem?_of_plugin? hp)).1
  have hentry : t.plugin? plugin.toNat ≠ none := by simp [hp]
  refine does_of env w (wp_pluginNew env w hp) ?_ ?_ ?_ ?_
  · rintro r t' w' h ⟨hlater, -, -⟩
    obtain ⟨lib, hlib, rfl⟩ := hlater r rfl
    exact ⟨fun j p hj => (hlib j).trans hj, fun _ _ _ hsi hs => ⟨_, _, hsi, hs⟩, fun _ h => h⟩
  · rintro - o t' w' h ⟨-, -, hcalls | ⟨hctor, hcalls⟩⟩
    · simp [hcalls, Allowed, Table.size, hlt, hentry]
    · simp [hcalls, Allowed, Table.size, hlt, hp, hctor]
  · rintro - hns o t' w' h ⟨-, herror, -⟩
    refine ⟨-1, herror ?_, rfl⟩
    rw [← Bool.not_eq_true]
    exact fun hctor => hns ⟨p, hp, hctor⟩
  · exact fun hb => absurd ⟨hne, trivial⟩ hb

theorem does_pluginConfig (hp : t.plugin? plugin.toNat = some p) (hne : plugin ≠ -1)
    (key : Option Bytes) : wp env (Op.prog configOf (.pluginConfig plugin key))
      (fun o t' _ h => Does configOf t (.pluginConfig plugin key) o t' (calls h)) t w := by
  have hlt : plugin.toNat < MAX_NUM_PLUGINS :=
    (Vector.getElem?_eq_some_iff.mp (getElem?_of_plugin? hp)).1
  have hentry : t.plugin? plugin.toNat ≠ none := by simp [hp]
  refine does_of env w (wp_pluginConfig env w hp key) ?_ ?_ ?_ ?_
  · rintro r t' w' h ⟨rfl, -, -⟩
    exact .refl _
  · rintro - o t' w' h ⟨-, -, hcalls | ⟨hconfig, hcalls⟩⟩
    · simp [hcalls, Allowed, Table.size, hlt, hentry]
    · simp [hcalls, Allowed, Table.size, hlt, hp, hconfig]
  · rintro - hns o t' w' h ⟨-, herror, -⟩
    refine ⟨-1, herror ?_, rfl⟩
    rw [← Bool.not_eq_true]
    exact fun hconfig => hns ⟨p, hp, hconfig⟩
  · exact fun hb => absurd ⟨hne, trivial⟩ hb

theorem lt_of_server (hsi : t.servers[handle.toNat]? = some si) : handle.toNat < MAX_NUM_SERVERS :=
  (Vector.getElem?_eq_some_iff.mp hsi).1

theorem does_serverConfig (hsi : t.servers[handle.toNat]? = some si) (hs : si.s = some s)
    (hne : handle ≠ -1) : wp env (Op.prog configOf (.serverConfig handle))
      (fun o t' _ h => Does configOf t (.serverConfig handle) o t' (calls h)) t w := by
  have hlt := lt_of_server hsi
  have hregistered (hb : t.server? handle.toNat ≠ none) : t.server? handle.toNat = some s := by
    rw [server?_eq hsi hs] at hb ⊢
    split_ifs at hb ⊢
    · exact absurd rfl hb
    · rfl
  refine does_of env w (wp_serverConfig env w hsi hs) ?_ ?_ ?_ ?_
  · rintro r t' w' h ⟨rfl, -, -⟩
    exact .refl _
  · rintro ⟨-, hb⟩ o t' w' h ⟨-, -, hcalls⟩
    have hs' := hregistered hb
    cases hc : s.config <;> simp [hcalls, hc, Allowed, Table.size, hlt, hs', LwnbdServer.has]
  · rintro ⟨-, hb⟩ hns o t' w' h ⟨-, herror, -⟩
    refine ⟨-1, herror ?_, rfl⟩
    rw [← Bool.not_eq_true]
    exact fun hconfig => hns ⟨s, hregistered hb, hconfig⟩
  · rintro hb o t' w' h ⟨-, -, hcalls⟩
    refine ⟨.entry .servers handle.toNat, by simp [hcalls], fun hentry => hb ⟨hne, hentry⟩⟩

theorem does_serverNew (hsi : t.servers[handle.toNat]? = some si) (hs : si.s = some s)
    (hne : handle ≠ -1) : wp env (Op.prog configOf (.serverNew handle))
      (fun o t' _ h => Does configOf t (.serverNew handle) o t' (calls h)) t w := by
  have hlt := lt_of_server hsi
  refine does_of env w (wp_serverNew env w hsi hs) ?_ ?_ ?_ ?_
  · rintro r t' w' h ⟨rfl, -⟩
    exact .refl _
  · rintro ⟨-, s', hs', hctor⟩ o t' w' h ⟨-, hcalls⟩
    simp [hcalls, Allowed, Table.size, hlt, hs', hctor, LwnbdServer.has]
  · exact fun hb hns => absurd hb.2 hns
  · rintro hb o t' w' h ⟨-, hcalls⟩
    exact ⟨.server handle.toNat .ctor, by simp [hcalls], fun hctor => hb ⟨hne, hctor⟩⟩

theorem does_serverStop (hsi : t.servers[handle.toNat]? = some si) (hs : si.s = some s)
    (hne : handle ≠ -1) : wp env (Op.prog configOf (.serverStop handle))
      (fun o t' _ h => Does configOf t (.serverStop handle) o t' (calls h)) t w := by
  have hlt := lt_of_server hsi
  refine does_of env w (wp_serverStop env w hsi hs) ?_ ?_ ?_ ?_
  · rintro r t' w' h ⟨hret, -⟩
    obtain ⟨hlt, rfl⟩ := hret r rfl
    exact later_serverStop hlt
  · rintro ⟨-, s', hs', hstop⟩ o t' w' h ⟨-, hcalls⟩
    cases hc : s.stop <;> simp [hcalls, hc, Allowed, Table.size, hlt, hs', hstop, LwnbdServer.has]
  · exact fun hb hns => absurd hb.2 hns
  · rintro hb o t' w' h ⟨-, hcalls⟩
    exact ⟨.server handle.toNat .stop, by simp [hcalls], fun hstop => hb ⟨hne, hstop⟩⟩

/-- A server that is not stopped is registered, as none is started. -/
theorem does_serverRun (hsi : t.servers[handle.toNat]? = some si)
    (hs : si.s = some s) (hne : handle ≠ -1) (hstarted : t.status[handle.toNat]? ≠ some .started) :
    wp env (Op.prog configOf (.serverRun handle))
      (fun o t' _ h => Does configOf t (.serverRun handle) o t' (calls h)) t w := by
  have hlt := lt_of_server hsi
  have hserver := server?_eq hsi hs
  obtain ⟨st, hst⟩ : ∃ st, t.status[handle.toNat]? = some st := ⟨_, Vector.getElem?_eq_getElem hlt⟩
  rw [hst] at hserver hstarted
  have hserver' : t.server? handle.toNat = if st = .stopped then some s else none := by
    rw [hserver]
    cases st <;> simp_all
  refine does_of env w (wp_serverRun env w hsi hs hst) ?_ ?_ ?_ ?_
  · rintro r t' w' h ⟨rfl, -, -⟩
    exact .refl _
  · rintro ⟨-, hb⟩ o t' w' h ⟨-, -, hcalls⟩
    dsimp only at hb
    rw [hserver'] at hb
    by_cases hstop : st = .stopped
    · have hrun : s.run = true := hb s (if_pos hstop)
      simp [hcalls, hstop, Allowed, Table.size, hlt, hserver', hrun, LwnbdServer.has]
    · simp [hcalls, hstop, Allowed, Table.size, hlt]
  · rintro ⟨-, hb⟩ hns o t' w' h ⟨-, herror, -⟩
    refine ⟨(), herror fun hstop => hns ⟨s, ?_, ?_⟩, rfl⟩
    · rw [hserver', if_pos hstop]
    · exact hb s (by rw [hserver', if_pos hstop])
  · rintro hb o t' w' h ⟨-, -, hcalls⟩
    have hstop : st = .stopped ∧ s.run = false := by
      by_contra hno
      refine hb ⟨hne, fun s' hs' => ?_⟩
      rw [hserver'] at hs'
      split_ifs at hs' with hstop
      cases hs'
      simpa [hstop] using hno
    refine ⟨.server handle.toNat .run, by simp [hcalls, hstop.1], ?_⟩
    rintro ⟨s', hs', hrun⟩
    rw [hserver', if_pos hstop.1] at hs'
    cases hs'
    exact absurd (hstop.2.symm.trans hrun) nofun

/-- What a call does with a handle that was returned and is not `-1`. -/
theorem Sound.does (hs : Sound t plugins servers) {op : Op} (hop : op.Given plugins servers)
    (hne : op.handle ≠ -1) :
    wp env (op.prog configOf) (fun o t' _ h => Does configOf t op o t' (calls h)) t w := by
  cases op with
  | pluginNew plugin =>
    obtain ⟨p, hp⟩ := hs.plugin plugin hop hne
    exact does_pluginNew env w hp hne
  | pluginConfig plugin key =>
    obtain ⟨p, hp⟩ := hs.plugin plugin hop hne
    exact does_pluginConfig env w hp hne key
  | serverConfig handle =>
    obtain ⟨si, s, hsi, hsome⟩ := hs.server handle hop hne
    exact does_serverConfig env w hsi hsome hne
  | serverNew handle =>
    obtain ⟨si, s, hsi, hsome⟩ := hs.server handle hop hne
    exact does_serverNew env w hsi hsome hne
  | serverRun handle =>
    obtain ⟨si, s, hsi, hsome⟩ := hs.server handle hop hne
    exact does_serverRun env w hsi hsome hne (hs.started _)
  | serverStop handle =>
    obtain ⟨si, s, hsi, hsome⟩ := hs.server handle hop hne
    exact does_serverStop env w hsi hsome hne

theorem Op.size_le {op : Op} (h : op.handle = -1) : op.table.size ≤ op.handle.toNat := by
  rw [h]
  cases op with
  | pluginNew | pluginConfig => exact show MAX_NUM_PLUGINS ≤ (-1 : UInt32).toNat by decide
  | serverConfig | serverNew | serverRun | serverStop =>
    exact show MAX_NUM_SERVERS ≤ (-1 : UInt32).toNat by decide

/-- A call keeps the invariant. One with `-1` does not return. -/
theorem Sound.call (hs : Sound t plugins servers) {op : Op} (hop : op.Given plugins servers)
    {r : Option ℤ} (hret : ((op.prog configOf).run env t w).out = .ret r) :
    Sound ((op.prog configOf).run env t w).mem plugins servers := by
  by_cases hne : op.handle = -1
  · exact absurd hret (op.not_ret env w (op.size_le hne) r)
  · exact hs.later ((hs.does env w hop hne).later r hret)

/-- A handle that was returned is `-1`, or has an entry, after any sequence of calls. -/
theorem Reached.sound (h : Reached configOf t plugins servers) : Sound t plugins servers := by
  induction h with
  | start =>
    refine ⟨nofun, nofun, fun i hi => ?_⟩
    obtain ⟨hlt, hi⟩ := Vector.getElem?_eq_some_iff.mp hi
    rw [Tables.empty, Vector.getElem_replicate] at hi
    cases hi
  | pluginInit init _ hinit ih =>
    refine ⟨fun j hj hne => ?_, ih.server, ih.started⟩
    rcases List.mem_cons.mp hj with rfl | hj
    · exact (pluginInit_registers hinit).resolve_left hne
    · obtain ⟨p, hp⟩ := ih.plugin j hj hne
      exact ⟨p, plugin?_pluginInit hinit hp⟩
  | serverInit env w init _ hinit ih =>
    rcases wp_serverInit env w init with ⟨hout, hmem⟩ | ⟨i, handle, s, hout, -, hmem⟩
    · rw [hmem]
      cases hout.symm.trans hinit
      refine ⟨ih.plugin, fun j hj hne => ?_, ih.started⟩
      exact ih.server j ((List.mem_cons.mp hj).resolve_left hne) hne
    · rw [hmem]
      cases hout.symm.trans hinit
      have hlater := ih.later (later_serverInit i handle s)
      refine ⟨hlater.plugin, fun j hj hne => ?_, hlater.started⟩
      rcases List.mem_cons.mp hj with rfl | hj
      · rw [toNat_ofNat_server]
        exact ⟨_, s, Vector.getElem?_set_self i.isLt, rfl⟩
      · exact hlater.server j hj hne
  | call env w op _ hop hret ih => exact ih.call env w hop hret

end Sound

/-- Callbacks that do nothing, and return `0`. -/
def idle : Env Access AccessResp Unit := fun _ e => (match e with
  | .index .. | .entry .. => ()
  | .pluginCtor _ => ⟨0, id, fun _ h => h⟩
  | .pluginConfig _ | .server .. => (0 : ℤ)
  | .serverNew _ => (0 : ℕ), ())

variable {configOf}

theorem not_harmless {t : Tables} {op : Op} {e : Access}
    (he : e ∈ calls ((op.prog configOf).run idle t ()).trace) (hno : ¬ Allowed configOf t e) :
    ¬ Harmless configOf t op :=
  fun h => hno ((h Unit idle ()).1 e he)

/-- **When a call does as expected**: after any sequence of calls, a call that is handed a handle
that was returned does with the tables only what may be done, and reports an error if it cannot do
its work, if and only if the handle is not `-1` and its entry is as the call needs it. -/
theorem handles_harmless_iff {t : Tables} {plugins servers : List UInt32} {op : Op}
    (ht : Reached configOf t plugins servers) (hop : op.Given plugins servers) :
    Harmless configOf t op ↔ op.Backed t := by
  constructor
  · intro hharmless
    by_contra hb
    obtain ⟨e, he, hno⟩ : ∃ e ∈ calls ((op.prog configOf).run idle t ()).trace,
        ¬ Allowed configOf t e := by
      by_cases hne : op.handle = -1
      · exact ⟨_, op.index_mem idle () t, Nat.not_lt.mpr (op.size_le hne)⟩
      · exact (ht.sound.does idle () hop hne).breaks hb
    exact not_harmless he hno hharmless
  · intro hb σ env w
    have hdoes : Does configOf t op _ _ _ := ht.sound.does env w hop hb.1
    exact ⟨hdoes.allowed hb, hdoes.error hb⟩

/-! ### The pool of the nbd server

`LwNBD.Servers` looks at `new` and `stop` only, and its servers take their handles from one pool. -/

/-- The callbacks that are looked at there. -/
def LwnbdServer.callbacks (s : LwnbdServer) : LwNBD.LwnbdServer := ⟨s.new, s.stop⟩

/-- An element of `servers`, as it is there. -/
def ServerInstance.pooled (si : ServerInstance) : Option LwNBD.ServerInstance :=
  si.s.map fun s => ⟨si.handle, s.callbacks⟩

/-- The tables of `servers.c`, and the pool. -/
def Tables.pooled (t : Tables) (inUse : Vector HandleState NBD_SERVER_MAX_DEVICES) : Servers :=
  ⟨t.servers.map ServerInstance.pooled, t.status, inUse⟩

/-- Servers whose `new` is `nbd_new`, and whose other callbacks do nothing. -/
def nbdPool : Env Access AccessResp (Vector HandleState NBD_SERVER_MAX_DEVICES)
  | inUse, .serverNew _ => nbdNew inUse
  | inUse, e => ((idle () e).1, inUse)

section Pool

variable {t : Tables} {inUse : Vector HandleState NBD_SERVER_MAX_DEVICES}

/-- The two `lwnbd_server_init` agree, in what they return and in what they leave. -/
theorem serverInit_pooled (init : Option LwnbdServer) :
    wp nbdPool (Api.serverInit init) (fun o t' inUse' _ =>
    ∃ i, o = .ret i ∧
      lwnbdServerInit (t.pooled inUse) (init.map LwnbdServer.callbacks) = (i, t'.pooled inUse'))
      t inUse := by
  unfold Api.serverInit lwnbdServerInit
  rw [wp_bind, wp_read, Post.seq_ret, Post.after_nil]
  dsimp only [Tables.pooled]
  cases Pool.take ServerState.isFree .stopped t.status with
  | none => exact ⟨_, rfl, rfl⟩
  | some x =>
    obtain ⟨i, status⟩ := x
    cases init with
    | none => exact ⟨_, rfl, rfl⟩
    | some s =>
      dsimp only [Option.map_some, LwnbdServer.callbacks]
      split_ifs
      · rw [wp_bind, wp_perform, Post.seq_ret, wp_bind, wp_modify, Post.seq_ret, wp_pure]
        refine ⟨_, rfl, ?_⟩
        rw [Vector.map_set]
        rfl
      · exact ⟨_, rfl, rfl⟩

/-- `lwnbd_server_stop` of the pool, with a handle that is an index of the table. -/
theorem lwnbdServerStop_pooled (t : Tables) (inUse : Vector HandleState NBD_SERVER_MAX_DEVICES)
    {handle : UInt32} (hlt : handle.toNat < MAX_NUM_SERVERS) :
    lwnbdServerStop (t.pooled inUse) handle = match t.servers[handle.toNat].s with
      | none => .halt .undefined
      | some s => if s.stop then
          .ret (0, ({ t with status := t.status.set handle.toNat .free } : Tables).pooled inUse)
        else .halt .undefined := by
  rw [lwnbdServerStop, dif_pos hlt]
  dsimp only [Tables.pooled]
  rw [Vector.getElem_map, ServerInstance.pooled]
  cases t.servers[handle.toNat].s with
  | none => rfl
  | some s => rfl

/-- The two `lwnbd_server_stop` agree: where one has no meaning the other has none. -/
theorem serverStop_pooled (handle : UInt32) :
    wp nbdPool (Api.serverStop handle) (fun o t' inUse' _ =>
    Outcome.Alike (fun r x => x = (r, t'.pooled inUse')) o
      (lwnbdServerStop (t.pooled inUse) handle)) t inUse := by
  by_cases hlt : handle.toNat < MAX_NUM_SERVERS
  · have hsi : t.servers[handle.toNat]? = some t.servers[handle.toNat] :=
      Vector.getElem?_eq_getElem hlt
    have hpool := lwnbdServerStop_pooled t inUse hlt
    rw [Api.serverStop, wp_instanceAt hsi]
    cases hs : t.servers[handle.toNat].s with
    | none =>
      rw [hs] at hpool
      rw [hpool]
      exact Outcome.Alike.halt
    | some s =>
      rw [hs] at hpool
      rw [wp_serverAt, wp_bind]
      cases hc : s.stop with
      | false =>
        rw [hpool.trans (if_neg (by rw [hc]; exact Bool.false_ne_true)),
          wp_callServer_none .stop hc]
        exact Outcome.Alike.halt
      | true =>
        rw [hpool.trans (if_pos hc), wp_callServer .stop hc, Post.seq_ret, wp_bind,
          wp_perform, Post.seq_ret, dif_pos hlt]
        exact Outcome.Alike.ret rfl
  · have hnone : t.servers[handle.toNat]? = none := Vector.getElem?_eq_none (Nat.not_lt.mp hlt)
    rw [lwnbdServerStop, dif_neg hlt, Api.serverStop, wp_bind, instanceAt, wp_bind, wp_perform,
      Post.seq_ret, wp_bind, wp_read, Post.seq_ret, hnone]
    exact Outcome.Alike.halt

end Pool

/-! ### A plugin and a server -/

namespace Sample

/-- A plugin without `config`. -/
def plain : LwnbdPlugin → PluginConfig := fun _ => ⟨false, none⟩

/-- A server that has all its callbacks. -/
def whole : LwnbdServer := ⟨0, true, true, true, true, true⟩

/-- One that has but `new`. -/
def bare : LwnbdServer := ⟨1, true, false, false, false, false⟩

/-- The tables when `lwnbd_server_init` was called of one. -/
def hosting (s : LwnbdServer) : Tables := ((serverInit (some s)).run idle .empty ()).mem

/-- The server that has all its callbacks can be given an export. -/
theorem handles_harmless_iff_hosting :
    Harmless plain (hosting whole) (.serverNew 0) ↔ (Op.serverNew 0).Backed (hosting whole) :=
  handles_harmless_iff (show Reached plain (hosting whole) [] [0] from
    .serverInit idle () (some whole) .start (by decide)) List.mem_cons_self

/-- **The `-1` of an initialisation that failed is an index past the table**, and a server that was
accepted may have no `stop` that can be called. -/
theorem handle_not_harmless :
    (Reached plain .empty [-1] [] ∧ ¬ Harmless plain .empty (.pluginNew (-1))) ∧
    Reached plain (hosting bare) [] [0] ∧ ¬ Harmless plain (hosting bare) (.serverStop 0) := by
  refine ⟨⟨.pluginInit none .start rfl, ?_⟩, .serverInit idle () (some bare) .start (by decide), ?_⟩
  · exact not_harmless (e := .index .plugins (-1 : UInt32).toNat) (by decide)
      (show ¬ _ < _ by decide)
  · refine not_harmless (e := .server 0 .stop) (by decide) ?_
    rintro ⟨s, hs, hstop⟩
    cases hs
    cases hstop

end Sample

end LwNBD.Api
