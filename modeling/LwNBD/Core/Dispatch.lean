import LwNBD.Core.Table
import LwNBD.Core.Uri
import LwNBD.Resumption.Rules

/-!
# The URI of an export

`[prefix/]name[?key=value&...][#fragment]`, as a string, and what `src/yuarel.c` and
`src/contexts_uri.c` make of it. The string is cut at the first `#`, what precedes it at the first
`?`, what precedes that at the first `/`; the query is cut at each `&`, and each of its parameters
at the first `=`. So a separator may occur wherever it is not the first that is looked for.

## The model

* `uriString`, `queryString` — the string that is made of a name, its parameters and the rest.
* `Plain`, `Askable` — the names and parameters that can be asked for.
* `findContext` — what `lwnbd_get_context` does when it has taken the string apart.

## What is proved

* `yuarelParse_uriString`, `yuarelParseQuery_queryString` — the string is taken apart as it was
  made.
* `uri_dispatch` — so the context of that name is searched for, and its plugin is asked once, with
  these parameters.
-/

namespace LwNBD

open Resumption

/-! ### Making the string -/

/-- A part of the string that may be missing, after its separator. -/
def afterSep (sep : UInt8) (part : Option Bytes) : Bytes := (part.map (sep :: ·)).getD []

/-- A parameter as it stands in a query. -/
def paramString (param : Param) : Bytes := param.1 ++ afterSep '='.toUInt8 param.2

/-- `k1=v1&k2&...`. -/
def queryString (params : List Param) : Bytes := ['&'.toUInt8].intercalate (params.map paramString)

/-- `[prefix/]name[?query][#fragment]`. -/
def uriString (pre : Option Bytes) (name : Bytes) (query fragment : Option Bytes) : Bytes :=
  (pre.map (· ++ ['/'.toUInt8])).getD [] ++ name ++ afterSep '?'.toUInt8 query ++
    afterSep '#'.toUInt8 fragment

/-- A name, or a prefix, has none of the separators. -/
structure Plain (b : Bytes) : Prop where
  /-- No slash. -/
  slash : '/'.toUInt8 ∉ b
  /-- No question mark. -/
  question : '?'.toUInt8 ∉ b
  /-- No number sign. -/
  number : '#'.toUInt8 ∉ b

/-- Parameters that can be asked with: one to `MAX_QUERY` of them, with keys free of `&`, `=` and
`#` and values free of `&` and `#`, and not just one empty key without a value. -/
structure Askable (params : List Param) : Prop where
  /-- There are some. -/
  ne_nil : params ≠ []
  /-- There are not too many. -/
  length_le : params.length ≤ MAX_QUERY
  /-- They are not one empty key. -/
  ne_empty : params ≠ [([], none)]
  /-- The keys. -/
  key : ∀ q ∈ params, '&'.toUInt8 ∉ q.1 ∧ '='.toUInt8 ∉ q.1 ∧ '#'.toUInt8 ∉ q.1
  /-- The values. -/
  val : ∀ q ∈ params, ∀ v ∈ q.2, '&'.toUInt8 ∉ v ∧ '#'.toUInt8 ∉ v

/-! ### Taking it apart -/

section Cut

variable {sep c : UInt8} {b : Bytes} {part : Option Bytes}

theorem findAndTerminate_of_notMem (h : sep ∉ b) : findAndTerminate b sep = (b, none) := by
  have hall : ∀ x ∈ b, (decide (x ≠ sep)) = true := fun x hx => decide_eq_true fun he => h (he ▸ hx)
  rw [findAndTerminate, if_neg h, ← List.append_nil b, List.takeWhile_append_of_pos hall,
    List.takeWhile_nil]

/-- A string is cut where it was joined, if the separator does not occur before. -/
theorem findAndTerminate_append (h : sep ∉ b) (part : Option Bytes) :
    findAndTerminate (b ++ afterSep sep part) sep = (b, part) := by
  cases part with
  | none =>
    rw [afterSep, Option.map_none, Option.getD_none, List.append_nil]
    exact findAndTerminate_of_notMem h
  | some rest =>
    have hall : ∀ x ∈ b, (decide (x ≠ sep)) = true :=
      fun x hx => decide_eq_true fun he => h (he ▸ hx)
    rw [afterSep, Option.map_some, Option.getD_some, findAndTerminate,
      List.takeWhile_append_of_pos hall, List.dropWhile_append_of_pos hall]
    simp

theorem notMem_afterSep (hsep : c ≠ sep) (h : ∀ b ∈ part, c ∉ b) : c ∉ afterSep sep part := by
  cases part with
  | none => exact List.not_mem_nil
  | some b => exact List.not_mem_cons_of_ne_of_not_mem hsep (h b rfl)

/-- Joined strings are cut where they were joined. -/
theorem splitParams_intercalate {params : List Bytes} {n : ℕ} (hne : params ≠ [])
    (hlen : params.length ≤ n + 1) (h : ∀ p ∈ params, sep ∉ p) :
    splitParams sep n ([sep].intercalate params) = params := by
  induction params generalizing n with
  | nil => exact absurd rfl hne
  | cons p params ih =>
    have hp := h p List.mem_cons_self
    cases params with
    | nil =>
      rw [List.intercalate_singleton]
      cases n with
      | zero => rfl
      | succ n => rw [splitParams, findAndTerminate_of_notMem hp]
    | cons q params =>
      obtain ⟨m, rfl⟩ : ∃ m, n = m + 1 := Nat.exists_eq_succ_of_ne_zero fun h0 => by
        subst h0; simp at hlen
      have hcut : findAndTerminate ([sep].intercalate (p :: q :: params)) sep =
          (p, some ([sep].intercalate (q :: params))) := by
        rw [List.intercalate_cons_cons, List.append_assoc]
        exact findAndTerminate_append hp (some _)
      rw [splitParams, hcut]
      simp only
      rw [ih (List.cons_ne_nil q params) (Nat.le_of_succ_le_succ hlen) fun p hp => h p (.tail _ hp)]

theorem notMem_intercalate {params : List Bytes} (hsep : c ≠ sep) (h : ∀ p ∈ params, c ∉ p) :
    c ∉ [sep].intercalate params := by
  induction params with
  | nil => exact List.not_mem_nil
  | cons p params ih =>
    cases params with
    | nil =>
      rw [List.intercalate_singleton]
      exact h p List.mem_cons_self
    | cons q params =>
      have hrest := ih fun p hp => h p (.tail _ hp)
      rw [List.intercalate_cons_cons, List.mem_append, List.mem_append, List.mem_singleton]
      rintro ((hp | hs) | hr)
      · exact h p List.mem_cons_self hp
      · exact hsep hs
      · exact hrest hr

end Cut

/-- The string is taken apart as it was made. -/
theorem yuarelParse_uriString {pre query fragment : Option Bytes} {name : Bytes}
    (hpre : ∀ p ∈ pre, Plain p) (hname : Plain name) (hquery : ∀ q ∈ query, '#'.toUInt8 ∉ q) :
    yuarelParse (uriString pre name query fragment) = ⟨name, query, fragment⟩ := by
  have hbefore (c : UInt8) (hc : c ≠ '/'.toUInt8) (hp : ∀ p ∈ pre, c ∉ p) (hn : c ∉ name) :
      c ∉ (pre.map (· ++ ['/'.toUInt8])).getD [] ++ name := by
    cases pre with
    | none => exact hn
    | some p =>
      rw [Option.map_some, Option.getD_some, List.mem_append, List.mem_append, List.mem_singleton]
      rintro ((h | h) | h)
      · exact hp p rfl h
      · exact hc h
      · exact hn h
  have hnumber : '#'.toUInt8 ∉ (pre.map (· ++ ['/'.toUInt8])).getD [] ++ name ++
      afterSep '?'.toUInt8 query := by
    rw [List.mem_append]
    rintro (h | h)
    · exact hbefore _ (by decide) (fun p hp => (hpre p hp).number) hname.number h
    · exact notMem_afterSep (by decide) hquery h
  have hquestion :=
    hbefore '?'.toUInt8 (by decide) (fun p hp => (hpre p hp).question) hname.question
  have hpath :
      (findAndTerminate ((pre.map (· ++ ['/'.toUInt8])).getD [] ++ name) '/'.toUInt8).2.getD
      ((pre.map (· ++ ['/'.toUInt8])).getD [] ++ name) = name := by
    cases pre with
    | none =>
      rw [Option.map_none, Option.getD_none, List.nil_append,
        findAndTerminate_of_notMem hname.slash]
      rfl
    | some p =>
      have hcut := findAndTerminate_append (hpre p rfl).slash (some name)
      rw [Option.map_some, Option.getD_some, List.append_assoc]
      rw [afterSep, Option.map_some, Option.getD_some] at hcut
      rw [List.singleton_append, hcut]
      rfl
  rw [yuarelParse, uriString, findAndTerminate_append hnumber]
  simp only
  rw [findAndTerminate_append hquestion]
  simp only
  rw [hpath]

section Query

variable {params : List Param}

theorem Askable.notMem_paramString {c : UInt8} {q : Param} (hc : c ≠ '='.toUInt8) (hkey : c ∉ q.1)
    (hval : ∀ v ∈ q.2, c ∉ v) : c ∉ paramString q := by
  rw [paramString, List.mem_append, not_or]
  exact ⟨hkey, notMem_afterSep hc hval⟩

theorem Askable.number (h : Askable params) : '#'.toUInt8 ∉ queryString params := by
  refine notMem_intercalate (by decide) fun p hp => ?_
  obtain ⟨q, hq, rfl⟩ := List.mem_map.mp hp
  exact notMem_paramString (by decide) (h.key q hq).2.2 fun v hv => (h.val q hq v hv).2

theorem Askable.queryString_ne_nil (h : Askable params) : queryString params ≠ [] := by
  obtain ⟨hne, -, hempty, -, -⟩ := h
  unfold queryString
  match params with
  | [] => exact absurd rfl hne
  | [(key, val)] =>
    intro he
    rw [List.map_singleton, List.intercalate_singleton, paramString, List.append_eq_nil_iff] at he
    obtain ⟨hkey, hval⟩ := he
    cases val with
    | none => exact hempty (by rw [show key = [] from hkey])
    | some v => exact absurd hval (List.cons_ne_nil _ _)
  | p :: q :: params =>
    rw [List.map_cons, List.map_cons, List.intercalate_cons_cons]
    simp

theorem yuarelParseQuery_some {query : Bytes} (h : query ≠ []) (delimiter : UInt8) (n : ℕ) :
    yuarelParseQuery (some query) delimiter n = (((splitParams delimiter (n - 1) query).length : ℤ),
      (splitParams delimiter (n - 1) query).map fun param =>
      findAndTerminate param '='.toUInt8) := by
  cases query with
  | nil => exact absurd rfl h
  | cons b rest => rfl

/-- A query is taken apart as it was made. -/
theorem yuarelParseQuery_queryString (h : Askable params) :
    yuarelParseQuery (some (queryString params)) '&'.toUInt8 MAX_QUERY =
    ((params.length : ℤ), params) := by
  have hsplit : splitParams '&'.toUInt8 (MAX_QUERY - 1) (queryString params) =
      params.map paramString := by
    have hlen : (params.map paramString).length ≤ MAX_QUERY := by
      rw [List.length_map]
      exact h.length_le
    refine splitParams_intercalate (by simpa using h.ne_nil) hlen fun p hp => ?_
    obtain ⟨q, hq, rfl⟩ := List.mem_map.mp hp
    exact Askable.notMem_paramString (by decide) (h.key q hq).1 fun v hv => (h.val q hq v hv).1
  have hcut : ∀ q ∈ params, findAndTerminate (paramString q) '='.toUInt8 = q := fun q hq =>
    findAndTerminate_append (h.key q hq).2.1 q.2
  rw [yuarelParseQuery_some h.queryString_ne_nil, hsplit, List.length_map, List.map_map]
  refine Prod.ext rfl ?_
  conv_rhs => rw [← List.map_id params]
  exact List.map_congr_left hcut

end Query

/-! ### Finding the context -/

/-- What `lwnbd_get_context` does when it has taken the string apart: search for the name, hand the
parameters to the plugin, and update the size. -/
def findContext (name : Bytes) (params : List Param) (nbParams : ℤ) :
    Server (Option ContextIdx) := do
  let reg := (← Prog.read).reg
  match reg.getContextString name with
  | none => pure none
  | some i =>
    match (reg.get i).p with
    | none => .halt .undefined
    | some p =>
      let ret ← if p.query then Prog.perform (Call.query p (reg.get i).handle params nbParams)
          else pure 0
      if ret ≠ 0 then pure none
      else do
        lwnbdUpdateSize i
        pure (some i)

theorem lwnbdGetContext_eq (uri : Bytes) : lwnbdGetContext uri = (do
    note (.enter (.lwnbdGetContext uri))
    findContext (yuarelParse uri).path (yuarelParseQuery (yuarelParse uri).query
      '&'.toUInt8 MAX_QUERY).2
      (yuarelParseQuery (yuarelParse uri).query '&'.toUInt8 MAX_QUERY).1) := rfl

/-- A query callback. -/
def Call.isQuery : Call → Bool
  | .query .. => true
  | _ => false

section Find

variable {σ : Type} (env : Env Call Resp σ) {name : Bytes} {params : List Param} {nbParams : ℤ}
  {s : Shared} {w : σ}

theorem run_findContext_none (h : s.reg.getContextString name = none) :
    (findContext name params nbParams).run env s w = ⟨.ret none, s, w, []⟩ := by
  simp [findContext, Prog.run_bind, Result.andThen, h]

variable {i : ContextIdx} {p : Plugin}

/-- The rest of the search, after the plugin was asked. -/
theorem run_found (h : s.reg.getContextString name = some i) (hp : (s.reg.get i).p = some p)
    (hq : p.query = true) : (findContext name params nbParams).run env s w =
      ((Prog.perform (Call.query p (s.reg.get i).handle params nbParams)).run env s w).andThen
      fun ret s' w' =>
        (if ret ≠ 0 then pure none else lwnbdUpdateSize i >>= fun _ => pure (some i)).run env
        s' w' := by
  rw [← Prog.run_bind]
  simp [findContext, Prog.run_bind, Result.andThen, h, hp, hq]

theorem queries_lwnbdUpdateSize :
    (calls ((lwnbdUpdateSize i).run env s w).trace).filter Call.isQuery = [] := by
  cases hp : (s.reg.get i).p with
  | none => simp [lwnbdUpdateSize, Prog.run_bind, Result.andThen, hp]
  | some p =>
    cases hg : p.getSize <;> simp [lwnbdUpdateSize, Prog.run_bind, Result.andThen,
    hp, hg, Call.isQuery]

/-- The plugin of the context that is found is handed the parameters once. -/
theorem queries_findContext (h : s.reg.getContextString name = some i)
    (hp : (s.reg.get i).p = some p) (hq : p.query = true) :
    (calls ((findContext name params nbParams).run env s w).trace).filter Call.isQuery =
      [.query p (s.reg.get i).handle params nbParams] := by
  have hrest (ret : ℤ) (w' : σ) : (calls ((if ret ≠ 0 then pure none else
      lwnbdUpdateSize i >>= fun _ => pure (some i) : Server (Option ContextIdx)).run
        env s w').trace).filter Call.isQuery = [] := by
    split_ifs
    · rfl
    · rw [Prog.run_bind, Result.andThen]
      cases ((lwnbdUpdateSize i).run env s w').out with
      | ret a => simp [queries_lwnbdUpdateSize]
      | halt e => exact queries_lwnbdUpdateSize env
  rw [run_found env h hp hq, Prog.run_perform, Result.andThen]
  simp only [List.singleton_append, calls_cons]
  rw [List.filter_cons_of_pos rfl, hrest]

end Find

/-- **Taking apart undoes making.** Asked for the string that is made of a name, any prefix and
fragment, and one to `MAX_QUERY` parameters, `lwnbd_get_context` searches for exactly that name, and
hands exactly these parameters, in order, to the plugin of the context it finds, once. Without
parameters it searches for the name all the same. -/
theorem uri_dispatch {pre : Option Bytes} {name : Bytes} {params : List Param}
    (fragment : Option Bytes) (hpre : ∀ p ∈ pre, Plain p) (hname : Plain name)
    (hparams : Askable params) :
    let uri := uriString pre name (some (queryString params)) fragment
    let bare := uriString pre name none fragment
    (lwnbdGetContext uri = do
      note (.enter (.lwnbdGetContext uri))
      findContext name params params.length) ∧
    (∀ (σ : Type) (env : Env Call Resp σ) (s : Shared) (w : σ) (i : ContextIdx) (p : Plugin),
      s.reg.getContextString name = some i → (s.reg.get i).p = some p → p.query = true →
        (calls ((lwnbdGetContext uri).run env s w).trace).filter Call.isQuery =
          [.query p (s.reg.get i).handle params params.length]) ∧
    (lwnbdGetContext bare = do
      note (.enter (.lwnbdGetContext bare))
      findContext name [] (-1)) := by
  intro uri bare
  have hfound : lwnbdGetContext (uriString pre name (some (queryString params)) fragment) = (do
      note (.enter (.lwnbdGetContext (uriString pre name (some (queryString params)) fragment)))
      findContext name params params.length) := by
    have hquery : ∀ q ∈ some (queryString params), '#'.toUInt8 ∉ q := by
      rintro q ⟨rfl⟩
      exact hparams.number
    rw [lwnbdGetContext_eq, yuarelParse_uriString hpre hname hquery,
      yuarelParseQuery_queryString hparams]
  refine ⟨hfound, fun σ env s w i p hs hp hq => ?_, ?_⟩
  · rw [hfound, note, Prog.run_bind, Prog.run_perform, Result.andThen]
    exact queries_findContext env hs hp hq
  · have hquery : ∀ q ∈ (none : Option Bytes), '#'.toUInt8 ∉ q := by simp
    rw [lwnbdGetContext_eq, yuarelParse_uriString hpre hname hquery]
    rfl

namespace Sample

/-- `some.pcm?volume=70#1m30`, the request of `contexts_uri.c`. -/
def pcm : Bytes := uriString none ("some.pcm".toList.map Char.toUInt8)
  (some (queryString [("volume".toList.map Char.toUInt8, some ("70".toList.map Char.toUInt8))]))
  (some ("1m30".toList.map Char.toUInt8))

/-- `uri_dispatch`, for that request. -/
theorem uri_dispatch_pcm : lwnbdGetContext pcm = (do
    note (.enter (.lwnbdGetContext pcm))
    findContext ("some.pcm".toList.map Char.toUInt8)
      [("volume".toList.map Char.toUInt8, some ("70".toList.map Char.toUInt8))] 1) := by
  have hname : Plain ("some.pcm".toList.map Char.toUInt8) := ⟨by decide, by decide, by decide⟩
  have hparams :
      Askable [("volume".toList.map Char.toUInt8, some ("70".toList.map Char.toUInt8))] :=
    ⟨by decide, by decide, by decide, by decide, by decide⟩
  exact (uri_dispatch (some ("1m30".toList.map Char.toUInt8)) (by simp) hname hparams).1

end Sample

end LwNBD
