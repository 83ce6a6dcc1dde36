import Mathlib.Data.List.TakeWhile
import LwNBD.Core.Dispatch
import LwNBD.Nbd.Exports

/-!
# What is listed, and what can be opened

The list walks the context table; an export is opened through the URI parser and the search for a
name. They agree on a name that has no separators and that no earlier context has.

## The model

* `Declined` — a plugin was asked, and refused.
* `Opens` — the context in a slot is found by its name, unless a plugin refuses.
* `Selectable` — it has a name that can be asked for, no earlier context has it, and its plugin
  tells a size.

## What is proved

* `path_eq_iff` — a string is its own path if it has no separators.
* `out_findContext` — how the search ends.
* `listed_opens` — a context that is listed is found by its name if and only if it is `Selectable`.
-/

namespace LwNBD

open Resumption

/-! ### The path of a name -/

section Path

variable {sep : UInt8} {b name : Bytes}

theorem prefix_of_findAndTerminate (b : Bytes) (sep : UInt8) : (findAndTerminate b sep).1 <+: b :=
  List.takeWhile_prefix _

/-- A string that is not cut does not have the separator. -/
theorem notMem_of_findAndTerminate_eq (h : (findAndTerminate b sep).1 = b) : sep ∉ b := by
  intro hmem
  have hne := List.takeWhile_eq_self_iff.mp h sep hmem
  exact of_decide_eq_true hne rfl

/-- What is left of a string that is cut at its first slash. -/
theorem cut_path_sublist (b : Bytes) : ((findAndTerminate b '/'.toUInt8).2.getD b).Sublist b := by
  unfold findAndTerminate
  split_ifs with h
  · exact (List.tail_sublist _).trans (List.dropWhile_sublist _)
  · exact List.Sublist.refl b

theorem notMem_of_path_eq (h : (findAndTerminate b '/'.toUInt8).2.getD b = b) :
    '/'.toUInt8 ∉ b := by
  intro hmem
  have hpos : 0 < b.length := List.length_pos_of_mem hmem
  have hle := (List.dropWhile_sublist (fun x => decide (x ≠ '/'.toUInt8)) (l := b)).length_le
  rw [findAndTerminate, if_pos hmem, Option.getD_some] at h
  have hlen := congrArg List.length h
  rw [List.length_tail] at hlen
  omega

theorem path_sublist (b : Bytes) : (yuarelParse b).path.Sublist b :=
  (cut_path_sublist _).trans
    ((prefix_of_findAndTerminate _ _).sublist.trans (prefix_of_findAndTerminate b _).sublist)

/-- A string is its own path if it has no separators, and only then. -/
theorem path_eq_iff : (yuarelParse name).path = name ↔ Plain name := by
  constructor
  · intro h
    have hle : (yuarelParse name).path.length ≤
        (findAndTerminate (findAndTerminate name '#'.toUInt8).1 '?'.toUInt8).1.length :=
      (cut_path_sublist _).length_le
    have hquestion := prefix_of_findAndTerminate (findAndTerminate name '#'.toUInt8).1 '?'.toUInt8
    have hnumber := prefix_of_findAndTerminate name '#'.toUInt8
    have hle₁ := hquestion.length_le
    have hle₂ := hnumber.length_le
    rw [h] at hle
    have h₂ : (findAndTerminate name '#'.toUInt8).1 = name := hnumber.eq_of_length (by omega)
    have h₁ : (findAndTerminate (findAndTerminate name '#'.toUInt8).1 '?'.toUInt8).1 =
        (findAndTerminate name '#'.toUInt8).1 := hquestion.eq_of_length (by omega)
    have h₀ :
        (findAndTerminate (findAndTerminate (findAndTerminate name '#'.toUInt8).1 '?'.toUInt8).1
        '/'.toUInt8).2.getD (findAndTerminate (findAndTerminate name '#'.toUInt8).1 '?'.toUInt8).1 =
        name := h
    rw [h₁, h₂] at h₀
    rw [h₂] at h₁
    exact ⟨notMem_of_path_eq h₀, notMem_of_findAndTerminate_eq h₁, notMem_of_findAndTerminate_eq h₂⟩
  · intro h
    have hparse : yuarelParse (uriString none name none none) = ⟨name, none, none⟩ :=
      yuarelParse_uriString (by simp) h (by simp)
    have huri : uriString none name none none = name := by simp [uriString, afterSep]
    rw [huri] at hparse
    rw [hparse]

end Path

/-! ### The search -/

section Find

variable {σ : Type} (env : Env Call Resp σ) {name : Bytes} {params : List Param} {nbParams : ℤ}
  {s : Shared} {w : σ} {i : ContextIdx} {p : Plugin}

theorem out_findContext (h : s.reg.getContextString name = some i) (hp : (s.reg.get i).p = some p) :
    ((findContext name params nbParams).run env s w).out =
      if p.query = true ∧ (env w (.query p (s.reg.get i).handle params nbParams)).1 ≠
      0 then .ret none
      else if p.getSize then .ret (some i) else .halt .undefined := by
  have hupdate (w' : σ) : ((lwnbdUpdateSize i >>= fun _ => pure (some i)).run env s w').out =
      if p.getSize then .ret (some i) else .halt .undefined := by
    have hsize : ((lwnbdUpdateSize i).run env s w').out = if p.getSize then .ret ()
        else .halt .undefined := by
      cases hg : p.getSize <;> simp [lwnbdUpdateSize, Prog.run_bind, Result.andThen, hp, hg]
    rw [Prog.run_bind, Result.andThen, hsize]
    cases p.getSize <;> rfl
  cases hq : p.query with
  | false =>
    have hrun : (findContext name params nbParams).run env s w =
        (lwnbdUpdateSize i >>= fun _ => pure (some i)).run env s w := by
      simp [findContext, Prog.run_bind, Result.andThen, h, hp, hq]
    have hno :
        ¬ (false = true ∧ (env w (.query p (s.reg.get i).handle params nbParams)).1 ≠ 0) := by simp
    rw [hrun, hupdate, if_neg hno]
  | true =>
    rw [run_found env h hp hq, Prog.run_perform, Result.andThen]
    by_cases hr : (env w (.query p (s.reg.get i).handle params nbParams)).1 = 0
    · rw [if_neg fun hc => hc.2 hr]
      simp only [hr]
      exact hupdate _
    · rw [if_pos ⟨rfl, hr⟩]
      simp only
      rw [if_pos hr]
      rfl

theorem out_findContext_null (h : s.reg.getContextString name = some i)
    (hp : (s.reg.get i).p = none) :
    ((findContext name params nbParams).run env s w).out = .halt .undefined := by
  simp [findContext, Prog.run_bind, Result.andThen, h, hp]

theorem getContextString_of_out
    (h : ((findContext name params nbParams).run env s w).out = .ret (some i)) :
    s.reg.getContextString name = some i := by
  cases hfound : s.reg.getContextString name with
  | none =>
    rw [run_findContext_none env hfound] at h
    cases h
  | some j =>
    cases hp : (s.reg.get j).p with
    | none =>
      rw [out_findContext_null env hfound hp] at h
      cases h
    | some p =>
      rw [out_findContext env hfound hp] at h
      split_ifs at h
      · cases h
      · cases h
        rfl

theorem query_mem_trace (h : s.reg.getContextString name = some i) (hp : (s.reg.get i).p = some p)
    (hq : p.query = true) : (⟨.query p (s.reg.get i).handle params nbParams,
      (env w (.query p (s.reg.get i).handle params nbParams)).1⟩ : Ev) ∈
        ((findContext name params nbParams).run env s w).trace := by
  rw [run_found env h hp hq, Prog.run_perform, Result.andThen]
  exact List.mem_append_left _ (List.mem_singleton.mpr rfl)

/-- Whatever the search finds has a plugin that tells its size. -/
def Registry.Served (reg : Registry) (name : Bytes) : Prop :=
  ∀ i, reg.getContextString name = some i → ∃ p, (reg.get i).p = some p ∧ p.getSize = true

/-- The search ends then. -/
theorem findContext_ret (h : s.reg.Served name) :
    ∃ e, ((findContext name params nbParams).run env s w).out = .ret e := by
  cases hi : s.reg.getContextString name with
  | none =>
    rw [run_findContext_none env hi]
    exact ⟨none, rfl⟩
  | some i =>
    obtain ⟨p, hp, hsize⟩ := h i hi
    rw [out_findContext env hi hp, if_pos hsize]
    split_ifs
    · exact ⟨none, rfl⟩
    · exact ⟨some i, rfl⟩

theorem findContext_undefined (h : ¬ s.reg.Served name)
    (henv : ∀ w p handle params n, (env w (.query p handle params n)).1 = (0 : ℤ)) :
    ((findContext name params nbParams).run env s w).out = .halt .undefined := by
  unfold Registry.Served at h
  push Not at h
  obtain ⟨i, hi, hno⟩ := h
  cases hp : (s.reg.get i).p with
  | none => exact out_findContext_null env hi hp
  | some p =>
    have hquery :
        ¬ (p.query = true ∧ (env w (.query p (s.reg.get i).handle params nbParams)).1 ≠ (0 : ℤ)) :=
      fun hc => hc.2 (henv _ _ _ _ _)
    rw [out_findContext env hi hp, if_neg hquery, if_neg (hno p hp)]

end Find

/-! ### What is to be shown -/

/-- A plugin was asked, and refused. -/
def Declined (h : List Ev) : Prop :=
  ∃ p handle params nbParams, ∃ r : ℤ, (⟨.query p handle params nbParams, r⟩ : Ev) ∈ h ∧ r ≠ 0

/-- The context in a slot is found by its name, whatever the environment does, unless a plugin
refuses. -/
def Opens (reg : Registry) (i : ContextIdx) : Prop :=
  ∀ (σ : Type) (env : Env Call Resp σ) (ctx : ContextNbd) (w : σ),
    let x := (lwnbdGetContext (reg.get i).name).run env ⟨ctx, reg⟩ w
    x.out = .ret (some i) ∨ x.out = .ret none ∧ Declined x.trace

/-- What can be selected: it has a name that can be asked for, which no earlier context has, and
a plugin that tells its size. -/
structure Selectable (reg : Registry) (i : ContextIdx) : Prop where
  /-- Its name has no separators. -/
  plain : Plain (reg.get i).name
  /-- No earlier context has it. -/
  first : ∀ j < i, (reg.get j).name ≠ (reg.get i).name
  /-- Its plugin has `get_size`. -/
  plugin : ∃ p, (reg.get i).p = some p ∧ p.getSize = true

section Opens

variable {reg : Registry} {hs : List ContextIdx} {i : ContextIdx}

/-- What `lwnbd_get_context` does is the search for the path. -/
theorem run_lwnbdGetContext {σ : Type} (env : Env Call Resp σ) (s : Shared) (w : σ) (uri : Bytes) :
    ∃ params nbParams w', ((lwnbdGetContext uri).run env s w).out =
        ((findContext (yuarelParse uri).path params nbParams).run env s w').out ∧
      ((lwnbdGetContext uri).run env s w).trace = ⟨.note (.enter (.lwnbdGetContext uri)), ()⟩ ::
        ((findContext (yuarelParse uri).path params nbParams).run env s w').trace :=
  ⟨(yuarelParseQuery (yuarelParse uri).query '&'.toUInt8 MAX_QUERY).2, _,
    (env w (.note (.enter (.lwnbdGetContext uri)))).2, rfl, rfl⟩

theorem Selectable.opens (h : Selectable reg i) (hk : Kept reg hs) (hi : i < reg.contextsCount) :
    Opens reg i := by
  intro σ env ctx w x
  obtain ⟨p, hp, hsize⟩ := h.plugin
  obtain ⟨params, nbParams, w', hout, htrace⟩ :=
    run_lwnbdGetContext env ⟨ctx, reg⟩ w (reg.get i).name
  have hfound : reg.getContextString (reg.get i).name = some i :=
    (Registry.getContextString_eq_some hk.name (hk.name i).1).mpr ⟨hi, rfl, h.first⟩
  rw [path_eq_iff.mpr h.plain] at hout htrace
  rw [out_findContext env hfound hp, if_pos hsize] at hout
  by_cases hr : p.query = true ∧ (env w' (.query p (reg.get i).handle params nbParams)).1 ≠ 0
  · rw [if_pos hr] at hout
    refine .inr ⟨hout, p, (reg.get i).handle, params, nbParams, _, ?_, hr.2⟩
    rw [htrace]
    exact List.mem_cons_of_mem _ (query_mem_trace env hfound hp hr.1)
  · rw [if_neg hr] at hout
    exact .inl hout

/-- Where no plugin refuses, only the name decides. -/
theorem Opens.selectable (h : Opens reg i) (hk : Kept reg hs) : Selectable reg i := by
  obtain ⟨params, nbParams, w', hout, htrace⟩ :=
    run_lwnbdGetContext quiet ⟨Sample.ctx, reg⟩ () (reg.get i).name
  have hpath : 0 ∉ (yuarelParse (reg.get i).name).path :=
    fun hz => (hk.name i).1 ((path_sublist _).subset hz)
  have hopen := h Unit quiet Sample.ctx ()
  simp only at hopen
  rw [hout, htrace] at hopen
  cases hfound : reg.getContextString (yuarelParse (reg.get i).name).path with
  | none =>
    rw [run_findContext_none quiet hfound] at hopen
    simp [Declined] at hopen
  | some j =>
    cases hp : (reg.get j).p with
    | none =>
      rw [out_findContext_null quiet hfound hp] at hopen
      simp at hopen
    | some p =>
      have hquiet :
          ¬ (p.query = true ∧ (quiet w' (.query p (reg.get j).handle params nbParams)).1 ≠ 0) :=
        fun hc => hc.2 rfl
      rw [out_findContext quiet hfound hp, if_neg hquiet] at hopen
      cases hsize : p.getSize with
      | false => simp [hsize] at hopen
      | true =>
        obtain rfl : j = i := by simpa [hsize] using hopen
        obtain ⟨-, hname, hfirst⟩ := (Registry.getContextString_eq_some hk.name hpath).mp hfound
        rw [← hname] at hfirst
        exact ⟨path_eq_iff.mp hname.symm, hfirst, p, hp, hsize⟩

end Opens

/-- **What is listed can be opened**, in whatever state the library comes to be in, if and only if
its name has no separators and no earlier context has it, and its plugin tells its size. -/
theorem listed_opens {lib : Library} {hs : List ContextIdx} (h : Reachable (fun _ _ => True) lib hs)
    {i : ContextIdx} (hi : i < lib.reg.contextsCount) : Opens lib.reg i ↔ Selectable lib.reg i :=
  ⟨fun ho => ho.selectable h.kept, fun hsel => hsel.opens h.kept hi⟩

namespace Sample

theorem selectable_exporting : Selectable exporting.reg slot where
  plain := ⟨by decide +kernel, by decide +kernel, by decide +kernel⟩
  first := fun j hj => absurd hj (Nat.not_lt_zero _)
  plugin := ⟨Sample.plugin, by decide +kernel, rfl⟩

/-- `listed_opens`, with one export. -/
theorem listed_opens_exporting : Opens exporting.reg slot :=
  (listed_opens exporting_reachable (by decide +kernel)).mpr selectable_exporting

/-- The library when it has one export, named `d#1`. -/
def numbered : Library :=
  { registered with
    reg := (Registry.empty.mark slot).update slot fun _ =>
      ⟨0, some Sample.plugin, [100, 35, 49], [109], 0⟩ }

theorem isCStr_numbered : IsCStr 32 [100, 35, 49] := by decide

theorem numbered_leads :
    (Change.pluginNew 0 (named 0 [100, 35, 49] isCStr_numbered)).Leads registered numbered :=
  ⟨0, by decide +kernel⟩

/-- **An export that cannot be opened**: asked for `d#1`, which is listed, `lwnbd_get_context`
searches for `d` and returns `NULL`, and no plugin was asked. -/
theorem listed_not_opened :
    (∃ hs, Reachable (fun _ _ => True) numbered hs) ∧ (slot : ℕ) < numbered.reg.contextsCount ∧
      (numbered.reg.get slot).name = [100, 35, 49] ∧ ¬ Opens numbered.reg slot := by
  refine ⟨⟨_, .step registered_reachable trivial numbered_leads⟩, by
    decide +kernel, by decide +kernel, fun h => ?_⟩
  have hout :
      ((lwnbdGetContext (numbered.reg.get slot).name).run quiet ⟨Sample.ctx, numbered.reg⟩ ()).out =
      .ret none := by decide +kernel
  have htrace :
      ((lwnbdGetContext (numbered.reg.get slot).name).run quiet ⟨Sample.ctx, numbered.reg⟩
      ()).trace = [⟨.note (.enter (.lwnbdGetContext [100, 35, 49])), ()⟩] := by
    decide +kernel
  have hopen := h Unit quiet Sample.ctx ()
  simp only at hopen
  rw [hout, htrace] at hopen
  simp [Declined] at hopen

end Sample

end LwNBD
