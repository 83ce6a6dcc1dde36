import LwNBD.Nbd.Bounds
import LwNBD.Nbd.Opens
import LwNBD.Plugins.File

/-!
# The size of an export that is looked up

`lwnbd_get_context` updates the size of the context it has found, and does not look at what the
plugin tells it. A plugin tells `-1` when it cannot tell the size, as `file_get_size` does of a file
that cannot be examined: the context is returned all the same, with that size, and compared as a
`uint64_t` such a size is larger than any request reaches.

## The model

* `AskedFirst` — the query that comes before `get_size`, if the plugin has one.
* `SearchEnds` — how a search ends.
* `LookupSound` — what is expected of the size of an export that is looked up.

## What is proved

* `findContext_ends` — a search ends in one of five ways.
* `lookup_size_iff` — a lookup is as expected if and only if the size that its plugin tells, when it
  comes to be asked, is not negative.
-/

namespace LwNBD

open Resumption

/-! ### The search -/

section Search

variable {σ : Type} (env : Env Call Resp σ) (s : Shared) (name : Bytes) (params : List Param)
  (nbParams : ℤ) (w : σ)

/-- The plugin is asked, if it has a query, and accepts: what is done, and the environment then. -/
inductive AskedFirst (p : Plugin) (handle : Handle) : σ → List Ev → Prop where
  /-- The plugin has no query. -/
  | unasked : p.query = false → AskedFirst p handle w []
  /-- It accepts. -/
  | accepted {r : ℤ} {w₁ : σ} : p.query = true → env w (.query p handle params nbParams) = (r, w₁) →
      r = 0 →
    AskedFirst p handle w₁ [⟨.query p handle params nbParams, r⟩]

/-- How a search ends: how it ends, the memory then, and the calls. -/
inductive SearchEnds : Outcome (Option ContextIdx) → Shared → List Ev → Prop where
  /-- There is no context of that name. -/
  | unknown : s.reg.getContextString name = none → SearchEnds (.ret none) s []
  /-- It has no plugin. -/
  | null {i : ContextIdx} : s.reg.getContextString name = some i → (s.reg.get i).p = none →
    SearchEnds (.halt .undefined) s []
  /-- Its plugin refuses. -/
  | declined {i : ContextIdx} {p : Plugin} {r : ℤ} {w₁ : σ} : s.reg.getContextString name = some i →
    (s.reg.get i).p = some p → p.query = true →
    env w (.query p (s.reg.get i).handle params nbParams) = (r, w₁) → r ≠ 0 →
    SearchEnds (.ret none) s [⟨.query p (s.reg.get i).handle params nbParams, r⟩]
  /-- Its plugin has no `get_size`. -/
  | unsized {i : ContextIdx} {p : Plugin} {w₁ : σ} {h : List Ev} : s.reg.getContextString name =
      some i →
    (s.reg.get i).p = some p → AskedFirst env params nbParams w p (s.reg.get i).handle w₁ h →
      p.getSize = false →
    SearchEnds (.halt .undefined) s h
  /-- Its plugin tells its size. -/
  | sized {i : ContextIdx} {p : Plugin} {w₁ w₂ : σ} {h : List Ev} {r : Int64} :
      s.reg.getContextString name = some i →
    (s.reg.get i).p = some p → AskedFirst env params nbParams w p (s.reg.get i).handle w₁ h →
      p.getSize = true →
    env w₁ (.getSize p (s.reg.get i).handle) = (r, w₂) →
    SearchEnds (.ret (some i)) { s with reg := s.reg.update i fun e => { e with exportsize := r } }
      (h ++ [⟨.getSize p (s.reg.get i).handle, r⟩])

variable {env s name params nbParams w} {p : Plugin} {handle : Handle} {w₁ w₂ : σ} {h h' : List Ev}

theorem AskedFirst.unique (ha : AskedFirst env params nbParams w p handle w₁ h)
    (hb : AskedFirst env params nbParams w p handle w₂ h') : w₁ = w₂ := by
  cases ha with
  | unasked hq =>
    cases hb with
    | unasked => rfl
    | accepted hq' => cases hq.symm.trans hq'
  | accepted hq hr =>
    cases hb with
    | unasked hq' => cases hq.symm.trans hq'
    | accepted _ hr' => exact congrArg Prod.snd (hr.symm.trans hr')

theorem AskedFirst.accepts (ha : AskedFirst env params nbParams w p handle w₁ h)
    {q : Plugin} {handle' : Handle} {params' : List Param} {n : ℤ} {r : ℤ}
    (hmem : (⟨.query q handle' params' n, r⟩ : Ev) ∈ h) : r = 0 := by
  cases ha with
  | unasked => cases hmem
  | accepted _ _ h0 =>
    cases List.mem_singleton.mp hmem
    exact h0

theorem AskedFirst.not_size (ha : AskedFirst env params nbParams w p handle w₁ h)
    {q : Plugin} {handle' : Handle} {r : Int64} : (⟨.getSize q handle', r⟩ : Ev) ∉ h := by
  intro hmem
  cases ha with
  | unasked => cases hmem
  | accepted => cases List.mem_singleton.mp hmem

/-- A search ends in one of these ways. -/
theorem findContext_ends : wp env (findContext name params nbParams)
    (fun o s' _ h => SearchEnds env s name params nbParams w o s' h) s w := by
  rw [findContext, wp_bind, wp_read, Post.seq_ret, Post.after_nil]
  dsimp only
  cases hfound : s.reg.getContextString name with
  | none => exact .unknown hfound
  | some i =>
    dsimp only
    cases hp : (s.reg.get i).p with
    | none => exact .null hfound hp
    | some p =>
      dsimp only
      have hupdate {w₁ : σ} {h : List Ev}
          (ha : AskedFirst env params nbParams w p (s.reg.get i).handle w₁ h) : wp env
            (do lwnbdUpdateSize i; pure (some i))
            (fun o s' _ t => SearchEnds env s name params nbParams w o s' (h ++ t)) s w₁ := by
        refine wp_updateSize hp (fun r w₂ hg hr => ?_) (fun hg => ?_)
        · exact .sized hfound hp ha hg hr
        · rw [List.append_nil]
          exact .unsized hfound hp ha hg
      cases hq : p.query with
      | false =>
        rw [if_neg (by decide), wp_bind, wp_pure, Post.seq_ret, if_neg (not_not.mpr rfl)]
        exact hupdate (.unasked hq)
      | true =>
        rw [if_pos rfl, wp_bind, wp_perform, Post.seq_ret]
        rcases hr : env w (.query p (s.reg.get i).handle params nbParams) with ⟨r, w₁⟩
        dsimp only
        by_cases h0 : r = 0
        · rw [if_neg (not_not.mpr h0)]
          exact hupdate (.accepted hq hr h0)
        · rw [if_pos h0]
          exact .declined hfound hp hq hr h0

end Search

/-! ### What is to be shown -/

/-- The size of an export that is looked up is as expected. -/
structure LookupSound (s : Shared) (uri : Bytes) (o : Outcome (Option ContextIdx))
    (s' : Shared) (h : List Ev) : Prop where
  /-- A context that is returned has the size that `get_size` has just told, which is not
  negative. -/
  returned : ∀ i, o = .ret (some i) → ∃ t p handle, ∃ r : Int64, h = t ++ [⟨.getSize p handle, r⟩] ∧
    (s'.reg.get i).exportsize = r ∧ 0 ≤ r.toInt
  /-- When the query fails, `NULL` is returned. -/
  query : ∀ p handle params n, ∀ r : ℤ, (⟨.query p handle params n, r⟩ : Ev) ∈ h →
    r ≠ 0 → o = .ret none
  /-- When `get_size` fails, `NULL` is returned. -/
  size : ∀ p handle, ∀ r : Int64, (⟨.getSize p handle, r⟩ : Ev) ∈ h → r.toInt < 0 → o = .ret none
  /-- The sizes of the other contexts are unchanged. -/
  others : ∀ j, s.reg.getContextString (yuarelParse uri).path ≠ some j →
    (s'.reg.get j).exportsize = (s.reg.get j).exportsize
  /-- So is the record of the server. -/
  server : s'.ctx = s.ctx

section Size

variable {σ : Type} {env : Env Call Resp σ} {s : Shared} {w : σ} {uri : Bytes}

variable (env s w uri) in
/-- What is relied on: the size that the plugin tells, when it comes to be asked, is not
negative. -/
def SizeTold : Prop :=
  ∀ i p w₁ h, s.reg.getContextString (yuarelParse uri).path = some i →
    (s.reg.get i).p = some p → p.getSize = true →
      AskedFirst env (yuarelParseQuery (yuarelParse uri).query '&'.toUInt8 MAX_QUERY).2
      (yuarelParseQuery (yuarelParse uri).query '&'.toUInt8 MAX_QUERY).1
      (env w (.note (.enter (.lwnbdGetContext uri)))).2 p (s.reg.get i).handle w₁ h →
    0 ≤ (env w₁ (.getSize p (s.reg.get i).handle)).1.toInt

theorem lwnbdGetContext_ends : wp env (lwnbdGetContext uri) (fun o s' _ h => ∃ t, h =
    ⟨.note (.enter (.lwnbdGetContext uri)), ()⟩ :: t ∧ SearchEnds env s (yuarelParse uri).path
      (yuarelParseQuery (yuarelParse uri).query '&'.toUInt8 MAX_QUERY).2
      (yuarelParseQuery (yuarelParse uri).query '&'.toUInt8 MAX_QUERY).1
      (env w (.note (.enter (.lwnbdGetContext uri)))).2 o s' t) s w := by
  rw [lwnbdGetContext_eq, wp_bind, wp_note, Post.seq_ret]
  refine wp_mono env ?_ findContext_ends
  intro o s' w' t ht
  exact ⟨t, rfl, ht⟩

variable {o : Outcome (Option ContextIdx)} {s' : Shared} {t : List Ev}

/-- A lookup that is told no size returns no context. -/
theorem lookupSound_of_untold {h : List Ev} (hret : ∀ i, o ≠ .ret (some i))
    (hquery : ∀ p handle params n, ∀ r : ℤ, (⟨.query p handle params n, r⟩ : Ev) ∈ h →
      r ≠ 0 → o = .ret none)
    (hsize : ∀ p handle, ∀ r : Int64, (⟨.getSize p handle, r⟩ : Ev) ∉ h) :
    LookupSound s uri o s h where
  returned i hi := absurd hi (hret i)
  query := hquery
  size p handle r hmem := absurd hmem (hsize p handle r)
  others _ _ := rfl
  server := rfl

section Sized

variable {i : ContextIdx} {p : Plugin} {w₁ : σ} {h : List Ev} {r : Int64}
  {params : List Param} {nbParams : ℤ}

/-- A lookup that is told a size returns the context with that size, which is not to be negative. -/
theorem lookupSound_told (hfound : s.reg.getContextString (yuarelParse uri).path = some i)
    (ha : AskedFirst env params nbParams w p (s.reg.get i).handle w₁ h) (hr : 0 ≤ r.toInt) :
    LookupSound s uri (.ret (some i)) { s with reg := s.reg.update i fun e =>
  { e with exportsize := r } }
      (⟨.note (.enter (.lwnbdGetContext uri)), ()⟩ ::
      (h ++ [⟨.getSize p (s.reg.get i).handle, r⟩])) where
  returned := by
    rintro j ⟨⟩
    refine ⟨⟨.note (.enter (.lwnbdGetContext uri)), ()⟩ :: h, p, (s.reg.get i).handle, r, rfl, ?_,
      hr⟩
    rw [Registry.get_update]
  query p' handle params n r' hmem hne := by
    rcases List.mem_append.mp ((List.mem_cons.mp hmem).resolve_left (by simp)) with hmem | hmem
    · exact absurd (ha.accepts hmem) hne
    · cases List.mem_singleton.mp hmem
  size p' handle r' hmem hneg := by
    rcases List.mem_append.mp ((List.mem_cons.mp hmem).resolve_left (by simp)) with hmem | hmem
    · exact absurd hmem ha.not_size
    · cases List.mem_singleton.mp hmem
      exact absurd hneg (Int.not_lt.mpr hr)
  others j hj := by
    have hne : j ≠ i := fun he => hj (hfound.trans (congrArg some he.symm))
    dsimp only
    rw [Registry.get_update_ne s.reg _ hne]
  server := rfl

end Sized

/-- A lookup that is as expected was told no size that is negative. -/
theorem SearchEnds.told_of_sound (hends : SearchEnds env s (yuarelParse uri).path
    (yuarelParseQuery (yuarelParse uri).query '&'.toUInt8 MAX_QUERY).2
    (yuarelParseQuery (yuarelParse uri).query '&'.toUInt8 MAX_QUERY).1
    (env w (.note (.enter (.lwnbdGetContext uri)))).2 o s' t)
    (hs : LookupSound s uri o s' (⟨.note (.enter (.lwnbdGetContext uri)), ()⟩ :: t)) :
    SizeTold env s w uri := by
  intro i p w₁ h hfound hp hg hasked
  cases hends with
  | unknown hno => cases hno.symm.trans hfound
  | null hf hnull =>
    cases hf.symm.trans hfound
    cases hnull.symm.trans hp
  | declined hf hp' hq hr hne =>
    cases hf.symm.trans hfound
    cases hp'.symm.trans hp
    cases hasked with
    | unasked hq' => cases hq.symm.trans hq'
    | accepted _ hr' h0 => exact absurd ((congrArg Prod.fst (hr.symm.trans hr')).trans h0) hne
  | unsized hf hp' _ hg' =>
    cases hf.symm.trans hfound
    cases hp'.symm.trans hp
    cases hg.symm.trans hg'
  | sized hf hp' ha _ hr =>
    cases hf.symm.trans hfound
    cases hp'.symm.trans hp
    cases hasked.unique ha
    rw [hr]
    by_contra hneg
    have hnone :=
      hs.size _ _ _ (.tail _ (List.mem_append_right _ List.mem_cons_self)) (Int.not_le.mp hneg)
    cases hnone

/-- A lookup that is told no size that is negative is as expected. -/
theorem SearchEnds.sound_of_told (hends : SearchEnds env s (yuarelParse uri).path
    (yuarelParseQuery (yuarelParse uri).query '&'.toUInt8 MAX_QUERY).2
    (yuarelParseQuery (yuarelParse uri).query '&'.toUInt8 MAX_QUERY).1
    (env w (.note (.enter (.lwnbdGetContext uri)))).2 o s' t) (htold : SizeTold env s w uri) :
    LookupSound s uri o s' (⟨.note (.enter (.lwnbdGetContext uri)), ()⟩ :: t) := by
  cases hends with
  | unknown => exact lookupSound_of_untold (by simp) (by simp) (by simp)
  | null => exact lookupSound_of_untold (by simp) (by simp) (by simp)
  | declined => exact lookupSound_of_untold (by simp) (fun _ _ _ _ _ _ _ => rfl) (by simp)
  | unsized _ _ ha _ =>
    refine lookupSound_of_untold (by simp) (fun p' handle params n r hmem hne => ?_)
      (fun p' handle r hmem => ?_)
    · exact absurd (ha.accepts ((List.mem_cons.mp hmem).resolve_left (by simp))) hne
    · exact ha.not_size ((List.mem_cons.mp hmem).resolve_left (by simp))
  | @sized i p w₁ w₂ h r hf hp ha hg hr =>
    have hnonneg := htold i p w₁ h hf hp hg ha
    rw [hr] at hnonneg
    exact lookupSound_told hf ha hnonneg

/-- **Lookup never yields an export of invalid size.** Whatever is asked for, a lookup is as
expected if and only if the size that the plugin tells, when it comes to be asked, is not
negative. -/
theorem lookup_size_iff (env : Env Call Resp σ) (s : Shared) (w : σ) (uri : Bytes) :
    let z := (lwnbdGetContext uri).run env s w
    LookupSound s uri z.out z.mem z.trace ↔ SizeTold env s w uri := by
  intro z
  obtain ⟨t, htrace, hends⟩ : wp env (lwnbdGetContext uri) _ s w := lwnbdGetContext_ends
  have htrace : z.trace = _ := htrace
  rw [htrace]
  exact ⟨hends.told_of_sound, hends.sound_of_told⟩

end Size

/-! ### A size that is negative -/

namespace Sample

open FilePlugin

/-- An operating system that finds no file. -/
def noFile : Env FileCall FileResp Unit := fun _ e => (match e with
  | .openFile .. | .closeFile _ | .fdatasync _ => (-1 : ℤ)
  | .fstat _ | .pread .. | .pwrite .. => none, ())

/-- The handles of the file plugin, of files that are not there. -/
def missing : FileMem := ⟨.start (.replicate _ ⟨-1, 0, [97]⟩), fun _ => 0⟩

/-- A host whose plugin is that of files. -/
def unexamined : Env Call Resp Unit
  | _, .getSize .. =>
    (Int64.ofInt (status ((fileGetSize FilePlugin.Sample.first).run noFile missing ()).out), ())
  | w, e => quiet w e

/-- **An export of size `-1` is returned**: the file plugin's, when its file cannot be examined. -/
theorem lookup_negative :
    ¬ ∀ (σ : Type) (env : Env Call Resp σ) (s : Shared) (w : σ) (uri : Bytes),
      let z := (lwnbdGetContext uri).run env s w
      LookupSound s uri z.out z.mem z.trace := by
  intro h
  have hs := h _ unexamined ⟨Sample.ctx, exporting.reg⟩ () [97]
  have htold : (⟨.getSize Sample.plugin 0, (-1 : Int64)⟩ : Ev) ∈
      ((lwnbdGetContext [97]).run unexamined ⟨Sample.ctx, exporting.reg⟩ ()).trace := by
    decide +kernel
  have hfound : ((lwnbdGetContext [97]).run unexamined ⟨Sample.ctx, exporting.reg⟩ ()).out =
      .ret (some slot) := by
    decide +kernel
  cases hfound.symm.trans (hs.size Sample.plugin 0 (-1) htold (by decide))

end Sample

end LwNBD
