import LwNBD.Core.Dispatch
import LwNBD.Data.Path
import LwNBD.Nbd.Opens
import LwNBD.Plugins.File

/-!
# The names of file exports

An export of the file plugin is asked for by the path of its file, as `examples/local-reader.c` does
it. The path is reduced three times: `file_ctor` names the export by its last component, and opens
the file by that name as well; `lwnbd_get_context` looks for what follows the first slash, up to a
`?` or a `#`.

## The model

* `filePlugin`, `NewExport` — the plugin as it is registered, and the creation of an export.
* `FilePath` — the path of a file: directories, and the name of the file.
* `FoundByPath` — what is expected: the path finds the export, and the plugin opens the file that
  the path designates.

## What is proved

* `yuarelParse_path_eq_iff` — when the lookup comes to the name that is looked for.
* `found_by_path_iff` — both are as expected exactly if the path is a name without `?` and `#`, or
  `./` and such a name.
-/

namespace LwNBD.FilePlugin

open Resumption

/-- The plugin, as it is registered. -/
def filePlugin (id : ℕ) : LwnbdPlugin where
  id := id
  pwrite := true
  flush := true
  getSize := true
  query := false
  blockSize := true
  pread := true
  ctor := true
  longname := "lwnbd file plugin".toList.map Char.toUInt8
  longname_nul := by decide
  exportWithoutHandle := 0

/-- `lwnbd_plugin_new(plugin, filename)` returns `0`, where the constructor of the plugin is
`file_ctor`. -/
def NewExport (lib : Library) (slots : Slots FILE_DRIVER_MAX_DEVICES FileHandle)
    (plugin : UInt32) (filename : Bytes) (lib' : Library)
    (slots' : Slots FILE_DRIVER_MAX_DEVICES FileHandle) : Prop :=
  ∃ ctor : CtorRun, (∀ c, fileCtor filename slots c = .ret (ctor.ret, slots', ctor.fill c)) ∧
    lwnbdPluginNew lib plugin ctor = .ret (0, lib')

/-- The path of a file: any number of directories, and a name that fits in a context. -/
structure FilePath where
  /-- The directories. The first one is empty if the path begins with a slash. -/
  dirs : List Bytes
  /-- The name. -/
  name : Bytes
  /-- The directories are without slashes. -/
  dirs_slash : ∀ c ∈ dirs, Path.slash ∉ c
  /-- The name is the name of a file. -/
  name_is : Path.IsName name
  /-- It fits. -/
  name_fits : IsCStr 32 name
  /-- No directory has a `NUL`. -/
  dirs_nul : ∀ c ∈ dirs, 0 ∉ c

/-- The path, as a string. -/
def FilePath.path (p : FilePath) : Bytes := Path.join p.dirs p.name

/-- The name that a call opens. -/
def FileCall.opens? : FileCall → Option Bytes
  | .openFile filename _ => some filename
  | _ => none

/-- The export is found and opened under its path, when it was created in a registry without another
of its name: `lwnbd_get_context` returns its context, and when it asks for the size the plugin opens
one path, which designates the file that `path` does. -/
def FoundByPath (path : Bytes) : Prop :=
  ∀ (lib lib' : Library) (hs : List ContextIdx) (slots slots' : Slots
    FILE_DRIVER_MAX_DEVICES FileHandle) (plugin : UInt32) (id : ℕ)
    (i : ContextIdx) (reg : Registry),
    Reachable (fun _ _ => True) lib hs → lib.plugin plugin = some (filePlugin id) →
    (∀ j, lib.reg.Created j → (lib.reg.get j).name ≠ basename path) →
      lib.reg.newContext = some (i, reg) →
    NewExport lib slots plugin path lib' slots' →
    (∀ (σ : Type) (env : Env Call Resp σ) (ctx : ContextNbd) (w : σ),
      ((lwnbdGetContext path).run env ⟨ctx, lib'.reg⟩ w).out = .ret (some i)) ∧
    ∃ h : FileIdx, (lib'.reg.get i).handle = h ∧ ∃ filename : Bytes,
      (∀ (σ : Type) (env : Env FileCall FileResp σ) (bytes : ℕ → UInt8) (w : σ),
        (calls ((fileGetSize h).run env ⟨slots', bytes⟩ w).trace).filterMap FileCall.opens? =
        [filename]) ∧
      ∀ (fs : Path.FileSystem) (f : fs.File), fs.Designates path f → fs.Designates filename f

/-- It is a name, alone or in `.`, and neither `?` nor `#` is in the name. -/
def FilePath.Simple (p : FilePath) : Prop :=
  (p.dirs = [] ∨ p.dirs = [Path.dot]) ∧ '?'.toUInt8 ∉ p.name ∧ '#'.toUInt8 ∉ p.name

/-! ### What the lookup looks for -/

/-- What precedes the first `#`, and in it the first `?`. -/
def cutUri (u : Bytes) : Bytes := (u.takeWhile (· ≠ '#'.toUInt8)).takeWhile (· ≠ '?'.toUInt8)

theorem yuarelParse_path (u : Bytes) : (yuarelParse u).path =
    if '/'.toUInt8 ∈ cutUri u then ((cutUri u).dropWhile (· ≠ '/'.toUInt8)).tail else cutUri u := by
  change (if '/'.toUInt8 ∈ cutUri u then some ((cutUri u).dropWhile (· ≠ '/'.toUInt8)).tail
    else none).getD (cutUri u) = _
  by_cases h : '/'.toUInt8 ∈ cutUri u
  · rw [if_pos h, if_pos h, Option.getD_some]
  · rw [if_neg h, if_neg h, Option.getD_none]

theorem cutUri_eq_self_iff {u : Bytes} : cutUri u = u ↔ '?'.toUInt8 ∉ u ∧ '#'.toUInt8 ∉ u := by
  rw [cutUri, List.takeWhile_takeWhile, List.takeWhile_eq_self_iff]
  constructor
  · intro h
    exact ⟨fun hmem => by simpa using h _ hmem, fun hmem => by simpa using h _ hmem⟩
  · rintro ⟨hquestion, hnumber⟩ x hx
    have hx₁ : x ≠ '?'.toUInt8 := fun he => hquestion (he ▸ hx)
    have hx₂ : x ≠ '#'.toUInt8 := fun he => hnumber (he ▸ hx)
    simp [hx₁, hx₂]

theorem mem_of_mem_cutUri {u : Bytes} {x : UInt8} (h : x ∈ cutUri u) : x ∈ u :=
  (List.takeWhile_prefix _).subset ((List.takeWhile_prefix _).subset h)

theorem cutUri_stays {c : Bytes} (hc : Path.Stays c) (u : Bytes) :
    cutUri (c ++ Path.slash :: u) = c ++ Path.slash :: cutUri u := by
  obtain rfl | rfl := hc <;> rfl

/-- What is looked for is the name, if the path stays in the working directory, exactly if the path
is simple. -/
theorem yuarelParse_path_eq_iff (p : FilePath) (h : Path.Here p.dirs) :
    (yuarelParse p.path).path = p.name ↔ p.Simple := by
  have hname := p.name_is
  rw [yuarelParse_path, FilePath.path, FilePath.Simple]
  generalize p.name = name at hname ⊢
  generalize p.dirs = dirs at h ⊢
  have hslash : '/'.toUInt8 ∉ name := hname.slash
  have hself : cutUri name = name ↔ '?'.toUInt8 ∉ name ∧ '#'.toUInt8 ∉ name := cutUri_eq_self_iff
  cases dirs with
  | nil =>
    rw [Path.join_nil, if_neg fun hmem => hslash (mem_of_mem_cutUri hmem), hself]
    exact (and_iff_right (.inl rfl)).symm
  | cons c dirs =>
    have hdot : c = Path.dot := by
      refine (h.stays c List.mem_cons_self).resolve_left fun hnil => h.relative ?_
      rw [hnil, List.head?_cons]
    have hcut : cutUri (Path.join (c :: dirs) name) = Path.dot ++ Path.slash ::
        cutUri (Path.join dirs name) := by
      rw [Path.join_cons, hdot, cutUri_stays (.inr rfl)]
    rw [hcut, if_pos (by simp [Path.slash])]
    change cutUri (Path.join dirs name) = name ↔ _
    cases dirs with
    | nil =>
      rw [Path.join_nil, hself, hdot]
      exact (and_iff_right (.inr rfl)).symm
    | cons d dirs =>
      have hd : Path.Stays d := h.stays d (.tail _ List.mem_cons_self)
      rw [Path.join_cons, cutUri_stays hd]
      refine iff_of_false (fun he => hname.slash ?_) (by simp)
      rw [← he]
      simp

/-! ### What the constructor makes of the path -/

theorem FilePath.path_eq (p : FilePath) :
    p.path = p.name ∨ ∃ pre, p.path = pre ++ Path.slash :: p.name := by
  have hjoin (dirs : List Bytes) (name : Bytes) :
      Path.join dirs name = name ∨ ∃ pre, Path.join dirs name = pre ++ Path.slash :: name := by
    induction dirs with
    | nil => exact .inl Path.join_nil
    | cons c dirs ih =>
      rw [Path.join_cons]
      obtain h | ⟨pre, h⟩ := ih
      · exact .inr ⟨c, by rw [h]⟩
      · exact .inr ⟨c ++ Path.slash :: pre, by simp [h]⟩
  exact hjoin p.dirs p.name

/-- The last component of a path is the name. -/
theorem basename_path (p : FilePath) : basename p.path = p.name := by
  have hname : p.name ≠ [] := fun h => p.name_is.stays (.inl h)
  have hslash : '/'.toUInt8 ∉ p.name := p.name_is.slash
  have hall : ∀ x ∈ p.name.reverse, decide (x ≠ '/'.toUInt8) = true := fun x hx =>
    decide_eq_true fun he => hslash (he ▸ List.mem_reverse.mp hx)
  have hlast (pre : Bytes) : (pre ++ p.name).rdropWhile (· = '/'.toUInt8) = pre ++ p.name := by
    refine List.rdropWhile_eq_self_iff.mpr fun hne => ?_
    rw [List.getLast_append_of_ne_nil hne hname]
    simpa using hall _ (List.mem_reverse.mpr (List.getLast_mem hname))
  have hbase (pre : Bytes) (h : pre.reverse.takeWhile (· ≠ '/'.toUInt8) = []) :
      basename (pre ++ p.name) = p.name := by
    have hne : pre ++ p.name ≠ [] := List.append_ne_nil_of_right_ne_nil pre hname
    rw [basename, if_neg hne, hlast, if_neg hne, List.rtakeWhile, List.reverse_append,
      List.takeWhile_append_of_pos hall, h, List.append_nil, List.reverse_reverse]
  obtain h | ⟨pre, h⟩ := p.path_eq
  · rw [h]
    exact hbase [] rfl
  · have hpre : (pre ++ [Path.slash]).reverse.takeWhile (· ≠ '/'.toUInt8) = [] := by
      simp [Path.slash]
    rw [h, List.append_cons]
    exact hbase _ hpre

/-! ### Creations and lookups -/

section Export

variable {lib lib' : Library} {hs : List ContextIdx}
  {slots slots' : Slots FILE_DRIVER_MAX_DEVICES FileHandle} {plugin : UInt32} {id : ℕ}
  {i : ContextIdx} {reg : Registry} {path : Bytes}

/-- What a creation leaves: a context more, with the name that the plugin opens. -/
structure Made (lib : Library) (id : ℕ) (i : ContextIdx) (path : Bytes) (lib' : Library)
    (slots' : Slots FILE_DRIVER_MAX_DEVICES FileHandle) : Prop where
  /-- Its name. -/
  name : (lib'.reg.get i).name = basename path
  /-- Its plugin. -/
  p : (lib'.reg.get i).p = some (filePlugin id).toPlugin
  /-- Its handle. -/
  handle : ∃ h : FileIdx, (lib'.reg.get i).handle = h ∧
    (slots'.handles.get h).filename = basename path
  /-- The other contexts are as they were. -/
  others : ∀ j, j ≠ i → lib'.reg.get j = lib.reg.get j
  /-- It comes after those that were created. -/
  count : lib.reg.contextsCount = i ∧ i < lib'.reg.contextsCount

theorem fileCtor_ret {r : ℤ} {c c' : Context} (h : fileCtor path slots c = .ret (r, slots', c')) :
    ∃ k : FileIdx, r = 0 ∧ (slots'.handles.get k).filename = basename path ∧
      c' = { c with handle := k, name := basename path } := by
  rw [fileCtor] at h
  cases ht : Pool.take HandleState.isFree .created slots.inUse with
  | none =>
    rw [poolCtor_full (Pool.take_eq_none_iff.mp ht)] at h
    cases h
  | some found =>
    obtain ⟨k, inUse⟩ := found
    rw [poolCtor_take ht] at h
    split_ifs at h
    cases h
    refine ⟨k, rfl, ?_, rfl⟩
    change (Vector.set slots.handles k _ k.isLt)[k.val].filename = basename path
    rw [Vector.getElem_set_self]

theorem NewExport.made (hp : lib.plugin plugin = some (filePlugin id))
    (hn : lib.reg.newContext = some (i, reg)) (h : NewExport lib slots plugin path lib' slots') :
    Made lib id i path lib' slots' := by
  obtain ⟨ctor, hctor, hnew⟩ := h
  obtain ⟨k, hret, hfile, hfill⟩ := fileCtor_ret (hctor { reg.get i with description := [] })
  have hctor' : (filePlugin id).ctor = true := rfl
  have hwo : (filePlugin id).exportWithoutHandle ≠ 1 := Int.zero_ne_one
  have hlong : (filePlugin id).longname.length < 64 := Nat.lt_of_sub_pos (Nat.zero_lt_succ _)
  have hdesc :
      ¬ ((reg.update i fun c => ctor.fill { c with description := [] }).get i).description ≠
      [] := by
    rw [Registry.get_update, hfill]
    exact not_not_intro rfl
  simp only [lwnbdPluginNew, hp, hn] at hnew
  rw [if_neg (not_not_intro hctor'), if_neg hwo, if_neg (not_not_intro hret),
    if_neg hdesc, if_pos hlong, Registry.update_update] at hnew
  cases hnew
  have hget := Registry.get_newContext (j := i) hn
  rw [hget] at hfill
  refine ⟨?_, ?_, ⟨k, ?_, hfile⟩, fun j hj => ?_, ?_, ?_⟩
  · rw [Registry.get_update_newContext hn, if_pos rfl, hfill]
  · rw [Registry.get_update_newContext hn, if_pos rfl]
  · rw [Registry.get_update_newContext hn, if_pos rfl, hfill]
  · rw [Registry.get_update_newContext hn, if_neg hj]
  · exact (Registry.newContext_eq_some hn).1.symm
  · rw [Registry.contextsCount_update, ← (Registry.newContext_eq_some hn).1.symm]
    exact Registry.contextsCount_lt hn

theorem newExport_of_room {k : FileIdx} {inUse : Vector HandleState FILE_DRIVER_MAX_DEVICES}
    (hp : lib.plugin plugin = some (filePlugin id)) (hn : lib.reg.newContext = some (i, reg))
    (ht : Pool.take HandleState.isFree .created slots.inUse = some (k, inUse))
    (hname : IsCStr 32 (basename path)) :
    ∃ lib' slots', NewExport lib slots plugin path lib' slots' := by
  have hfits : (basename path).length < 32 ∧ ∀ d ∈ (none : Option Bytes), d.length < 64 :=
    ⟨hname.2, by simp⟩
  have hctor' : (filePlugin id).ctor = true := rfl
  have hwo : (filePlugin id).exportWithoutHandle ≠ 1 := Int.zero_ne_one
  have hlong : (filePlugin id).longname.length < 64 := Nat.lt_of_sub_pos (Nat.zero_lt_succ _)
  let ctor : CtorRun :=
    ⟨0, fun c => { c with handle := k, name := basename path }, fun c hc => ⟨hname, hc.2⟩⟩
  have hctor : ∀ c, fileCtor path slots c = .ret (0, ⟨slots.handles.set k
      { slots.handles.get k with filename := basename path } k.isLt, inUse⟩, ctor.fill c) :=
    fun c => (poolCtor_take ht).trans (if_pos hfits)
  have hnew : ∃ lib', lwnbdPluginNew lib plugin ctor = .ret (0, lib') := by
    simp only [lwnbdPluginNew, hp, hn]
    rw [if_neg (not_not_intro hctor'), if_neg hwo, if_neg (not_not_intro rfl), Registry.get_update,
      if_neg (not_not_intro rfl), if_pos hlong]
    exact ⟨_, rfl⟩
  obtain ⟨lib', hnew⟩ := hnew
  exact ⟨lib', _, ctor, hctor, hnew⟩

theorem NewExport.kept (hk : Kept lib.reg hs) (h : NewExport lib slots plugin path lib' slots') :
    ∃ hs', Kept lib'.reg hs' := by
  obtain ⟨ctor, -, hnew⟩ := h
  have hleads : (Change.pluginNew plugin ctor).Leads lib lib' := ⟨0, hnew⟩
  exact ⟨_, hk.step hleads⟩

/-- The lookup finds the export if it looks for its name. -/
theorem Made.found_iff (hm : Made lib id i path lib' slots') (hk : Kept lib.reg hs)
    {hs' : List ContextIdx} (hk' : Kept lib'.reg hs') (hnul : 0 ∉ path)
    (hfresh : ∀ j, lib.reg.Created j → (lib.reg.get j).name ≠ basename path) :
    (∀ (σ : Type) (env : Env Call Resp σ) (ctx : ContextNbd) (w : σ),
      ((lwnbdGetContext path).run env ⟨ctx, lib'.reg⟩ w).out = .ret (some i)) ↔
    (yuarelParse path).path = basename path := by
  have hpath : 0 ∉ (yuarelParse path).path := fun hz => hnul ((path_sublist _).subset hz)
  constructor
  · intro h
    obtain ⟨params, nbParams, w', hout, -⟩ :=
      run_lwnbdGetContext quiet ⟨LwNBD.Sample.ctx, lib'.reg⟩ () path
    rw [h Unit quiet LwNBD.Sample.ctx ()] at hout
    have hfound := getContextString_of_out quiet hout.symm
    have hfirst := (Registry.getContextString_eq_some hk'.name hpath).mp hfound
    exact hfirst.2.1.symm.trans hm.name
  · intro h σ env ctx w
    obtain ⟨params, nbParams, w', hout, -⟩ := run_lwnbdGetContext env ⟨ctx, lib'.reg⟩ w path
    have hfirst : lib'.reg.FirstNamed (yuarelParse path).path i := by
      refine ⟨hm.count.2, hm.name.trans h.symm, fun j hj => ?_⟩
      rw [hm.others j (ne_of_lt hj), h]
      exact hfresh j ((hk.created_iff j).mpr (by rw [hm.count.1]; exact hj))
    have hfound := (Registry.getContextString_eq_some hk'.name hpath).mpr hfirst
    have hquery : ¬ ((filePlugin id).query = true ∧
        (env w' (.query (filePlugin id).toPlugin (lib'.reg.get i).handle params nbParams)).1 ≠
        (0 : ℤ)) :=
      fun hc => Bool.false_ne_true hc.1
    rw [hout, out_findContext env hfound hm.p, if_neg hquery]
    rfl

end Export

theorem opens_fileGetSize {σ : Type} (env : Env FileCall FileResp σ) (h : FileIdx)
    (m : FileMem) (w : σ) : (calls ((fileGetSize h).run env m w).trace).filterMap FileCall.opens? =
    [(m.slots.handles.get h).filename] := by
  refine (?_ : wp env (fileGetSize h) (fun _ _ _ t =>
    (calls t).filterMap FileCall.opens? = [(m.slots.handles.get h).filename]) m w)
  unfold fileGetSize fileOpen
  simp only [Bool.false_eq_true, if_false, wp_bind, wp_read, wp_modify, wp_perform,
    Post.seq_ret, wp_pure, Post.after_apply, List.nil_append, List.append_nil, List.cons_append]
  rfl

/-! ### Under its path -/

theorem FilePath.notMem_nul (p : FilePath) : 0 ∉ p.path := by
  have hjoin (dirs : List Bytes) (h : ∀ c ∈ dirs, 0 ∉ c) : 0 ∉ Path.join dirs p.name := by
    induction dirs with
    | nil =>
      rw [Path.join_nil]
      exact p.name_fits.1
    | cons c dirs ih =>
      rw [Path.join_cons, List.mem_append, List.mem_cons]
      rintro (hc | hs | hrest)
      · exact h c List.mem_cons_self hc
      · exact absurd hs (by decide)
      · exact ih (fun c hc => h c (.tail _ hc)) hrest
  exact hjoin p.dirs p.dirs_nul

theorem numPlugins_pos : 0 < MAX_NUM_PLUGINS := by decide

/-- The library when the plugin is registered. -/
def withFilePlugin : Library :=
  { Library.empty with
    plugins := Library.empty.plugins.set 0 (some (filePlugin 0)) numPlugins_pos
    status := Library.empty.status.set 0 .created numPlugins_pos }

theorem withFilePlugin_reachable : Reachable (fun _ _ => True) withFilePlugin [] := by
  have hinit : (Change.pluginInit (some (filePlugin 0))).Leads .empty withFilePlugin :=
    ⟨0, by decide +kernel⟩
  have hands : Library.empty.hands (.pluginInit (some (filePlugin 0))) = none := by decide +kernel
  have h : Reachable (fun _ _ => True) withFilePlugin _ := .step .start trivial hinit
  rw [hands] at h
  exact h

/-- A host on which every call fails. -/
def failing : Env FileCall FileResp Unit
  | _, .openFile .. | _, .closeFile _ | _, .fdatasync _ => ((-1 : ℤ), ())
  | _, .fstat _ | _, .pread .. | _, .pwrite .. => (none, ())

/-- What a path that finds its export is like. -/
theorem FoundByPath.simple {p : FilePath} (h : FoundByPath p.path) : p.Simple := by
  have hplugin : withFilePlugin.plugin 0 = some (filePlugin 0) := by decide +kernel
  have hroom : withFilePlugin.reg.newContext.isSome = true := by decide +kernel
  have hfree : (Pool.take HandleState.isFree .created
      (.replicate FILE_DRIVER_MAX_DEVICES HandleState.free)).isSome = true := by decide +kernel
  obtain ⟨⟨i, reg⟩, hn⟩ := Option.isSome_iff_exists.mp hroom
  obtain ⟨⟨k, inUse⟩, ht⟩ := Option.isSome_iff_exists.mp hfree
  have hkept := withFilePlugin_reachable.kept
  have hfresh : ∀ j, withFilePlugin.reg.Created j →
      (withFilePlugin.reg.get j).name ≠ basename p.path := by
    intro j hj
    have hlt := (hkept.created_iff j).mp hj
    rw [hkept.contextsCount] at hlt
    exact absurd hlt (Nat.not_lt_zero _)
  have hname : IsCStr 32 (basename p.path) := by
    rw [basename_path]
    exact p.name_fits
  obtain ⟨lib', slots', hnew⟩ : ∃ lib' slots',
      NewExport withFilePlugin (.start (.replicate _ ⟨0, 0, []⟩)) 0 p.path lib' slots' :=
    newExport_of_room hplugin hn ht hname
  obtain ⟨hs', hk'⟩ := hnew.kept hkept
  have hm := hnew.made hplugin hn
  obtain ⟨hfound, k, hk, filename, hopens, hdes⟩ :=
    h _ _ _ _ _ _ _ _ _ withFilePlugin_reachable hplugin hfresh hn hnew
  obtain ⟨k', hk₁, hfile⟩ := hm.handle
  obtain rfl : k = k' := Fin.ext (hk.symm.trans hk₁)
  have hopened := hopens Unit failing (fun _ => 0) ()
  rw [opens_fileGetSize, hfile, basename_path] at hopened
  cases hopened
  have hhere := (Path.designates_name_iff p.dirs_slash p.name_is).mp hdes
  refine (yuarelParse_path_eq_iff p hhere).mp ?_
  rw [(hm.found_iff hkept hk' p.notMem_nul hfresh).mp hfound, basename_path]

/-- **An export is found and opened under its path** exactly if the path is simple. -/
theorem found_by_path_iff (p : FilePath) : FoundByPath p.path ↔ p.Simple := by
  refine ⟨FoundByPath.simple, fun h => ?_⟩
  intro lib lib' hs slots slots' plugin id i reg hreach hp hfresh hn hnew
  obtain ⟨hs', hk'⟩ := hnew.kept hreach.kept
  have hm := hnew.made hp hn
  obtain ⟨k, hk, hfile⟩ := hm.handle
  have hhere : Path.Here p.dirs := by
    obtain hd | hd := h.1
    · exact ⟨by simp [hd], by simp [hd]⟩
    · exact ⟨by simp [hd, Path.dot], by simp [hd, Path.Stays]⟩
  have hpath := (yuarelParse_path_eq_iff p hhere).mpr h
  rw [basename_path] at hfile
  refine ⟨(hm.found_iff hreach.kept hk' p.notMem_nul hfresh).mpr (by rw [hpath, basename_path]),
    k, hk, p.name, ?_, ?_⟩
  · intro σ env bytes w
    rw [opens_fileGetSize, hfile]
  · exact (Path.designates_name_iff p.dirs_slash p.name_is).mpr hhere

namespace Sample

/-- `/tmp/f`. -/
def inTmp : FilePath where
  dirs := [[], "tmp".toList.map Char.toUInt8]
  name := ['f'.toUInt8]
  dirs_slash := by decide
  name_is := ⟨by decide, by decide, by decide⟩
  name_fits := by decide
  dirs_nul := by decide

/-- **The export of `/tmp/f` is not found under its path**: the lookup looks for `tmp/f`. -/
theorem not_found_by_path : ¬ ∀ p : FilePath, FoundByPath p.path := by
  intro h
  have hsimple := (h inTmp).simple
  obtain hd | hd := hsimple.1
  · exact absurd hd (by decide)
  · exact absurd hd (by decide)

end Sample

end LwNBD.FilePlugin
