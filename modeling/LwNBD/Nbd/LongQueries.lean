import LwNBD.Nbd.Lookup

/-!
# Queries that are too long

A query of more than `MAX_QUERY` parameters. `yuarel_parse_query` stops when the array is full,
before it looks for the end of the last parameter it accepts: that one keeps the rest of the query,
with its delimiters. So a plugin is never handed the first `MAX_QUERY` of them.

## The model

* `HandedExactly` — what is expected of the query callback: the first `MAX_QUERY` parameters.

## What is proved

* `splitParams_intercalate_of_lt` — the last piece of a string that is cut too few times is the
  rest.
* `yuarelParseQuery_long` — so is the last parameter that is handed to a plugin.
* `long_query_iff` — the callback is handed what is expected if and only if it is not called.
-/

namespace LwNBD

open Resumption

/-! ### Taking a long query apart -/

section Cut

variable {sep c : UInt8} {b : Bytes}

/-- Joined strings that are cut too few times: the last piece is the rest. -/
theorem splitParams_intercalate_of_lt {params : List Bytes} {n : ℕ} (hlen : n < params.length)
    (h : ∀ p ∈ params, sep ∉ p) : splitParams sep n ([sep].intercalate params) =
      params.take n ++ [[sep].intercalate (params.drop n)] := by
  induction n generalizing params with
  | zero => rfl
  | succ n ih =>
    match params, hlen with
    | p :: q :: params, hlen =>
      have hcut : findAndTerminate ([sep].intercalate (p :: q :: params)) sep =
          (p, some ([sep].intercalate (q :: params))) := by
        rw [List.intercalate_cons_cons, List.append_assoc]
        exact findAndTerminate_append (h p List.mem_cons_self) (some _)
      rw [splitParams, hcut]
      simp only
      rw [ih (Nat.lt_of_succ_lt_succ hlen) fun p hp => h p (.tail _ hp)]
      rfl

/-- A character that is not the separator stays in one of the parts. -/
theorem mem_findAndTerminate (hc : c ≠ sep) (h : c ∈ b) :
    c ∈ (findAndTerminate b sep).1 ∨ ∃ v ∈ (findAndTerminate b sep).2, c ∈ v := by
  by_cases hsep : sep ∈ b
  · obtain ⟨left, right, rfl, hleft⟩ := List.eq_append_cons_of_mem hsep
    have hcut : findAndTerminate (left ++ sep :: right) sep = (left, some right) :=
      findAndTerminate_append hleft (some right)
    rw [hcut]
    rcases List.mem_append.mp h with h | h
    · exact .inl h
    · exact .inr ⟨right, rfl, (List.mem_cons.mp h).resolve_left hc⟩
  · rw [findAndTerminate_of_notMem hsep]
    exact .inl h

/-- Two strings that are joined are so with a separator. -/
theorem sep_mem_intercalate {params : List Bytes} (h : 2 ≤ params.length) :
    sep ∈ [sep].intercalate params := by
  match params, h with
  | p :: q :: params, _ =>
    rw [List.intercalate_cons_cons, List.mem_append, List.mem_append]
    exact .inl (.inr List.mem_cons_self)

end Cut

/-- Parameters that can be told apart in a query: keys free of `&` and `=`, and values free of
`&`. -/
structure Delimited (params : List Param) : Prop where
  /-- The keys. -/
  key : ∀ q ∈ params, '&'.toUInt8 ∉ q.1 ∧ '='.toUInt8 ∉ q.1
  /-- The values. -/
  val : ∀ q ∈ params, ∀ v ∈ q.2, '&'.toUInt8 ∉ v

section Query

variable {params : List Param}

theorem Delimited.notMem_paramStrings (h : Delimited params) :
    ∀ p ∈ params.map paramString, '&'.toUInt8 ∉ p := by
  intro p hp
  obtain ⟨q, hq, rfl⟩ := List.mem_map.mp hp
  exact Askable.notMem_paramString (by decide) (h.key q hq).1 (h.val q hq)

theorem delimiter_mem_queryString (h : 2 ≤ params.length) : '&'.toUInt8 ∈ queryString params :=
  sep_mem_intercalate (by rwa [List.length_map])

/-- The last parameter that fits keeps the rest of the query. -/
theorem yuarelParseQuery_long (h : Delimited params) (hlen : MAX_QUERY < params.length) :
    yuarelParseQuery (some (queryString params)) '&'.toUInt8 MAX_QUERY = ((MAX_QUERY : ℤ),
      params.take (MAX_QUERY - 1) ++
      [findAndTerminate (queryString (params.drop (MAX_QUERY - 1))) '='.toUInt8]) := by
  have hne : queryString params ≠ [] := by
    intro h0
    have hmem : '&'.toUInt8 ∈ queryString params :=
      delimiter_mem_queryString (Nat.le_trans (by decide) (Nat.le_of_lt hlen))
    rw [h0] at hmem
    cases hmem
  have hsplit : splitParams '&'.toUInt8 (MAX_QUERY - 1) (queryString params) =
      (params.take (MAX_QUERY - 1)).map paramString ++
      [queryString (params.drop (MAX_QUERY - 1))] := by
    rw [queryString, splitParams_intercalate_of_lt
      (by rw [List.length_map]; exact Nat.lt_of_le_of_lt (by decide) hlen) h.notMem_paramStrings,
      List.map_take, queryString, List.map_drop]
  have hcut : ∀ q ∈ params.take (MAX_QUERY - 1), findAndTerminate (paramString q) '='.toUInt8 = q :=
    fun q hq =>
    findAndTerminate_append (h.key q (List.mem_of_mem_take hq)).2 q.2
  rw [yuarelParseQuery_some hne, hsplit, List.length_append, List.length_map, List.length_take,
    List.length_singleton, List.map_append, List.map_map, List.map_singleton]
  refine Prod.ext ?_ ?_
  · dsimp only
    rw [Nat.min_eq_left (Nat.le_trans (by decide) (Nat.le_of_lt hlen))]
    rfl
  · exact congrArg (· ++ _) ((List.map_congr_left hcut).trans (List.map_id _))

end Query

/-! ### Every long query -/

/-- What the query callback is handed: exactly the first `MAX_QUERY` parameters, with no delimiter
in any key or value. -/
def HandedExactly (params : List Param) (h : List Ev) : Prop :=
  ∀ p handle ps n, Call.query p handle ps n ∈ calls h → ps = params.take MAX_QUERY ∧ n = MAX_QUERY ∧
    ∀ q ∈ ps, '&'.toUInt8 ∉ q.1 ∧ ∀ v ∈ q.2, '&'.toUInt8 ∉ v

/-- No plugin is asked: there is no context of that name, or its plugin has no query callback. -/
def Unasked (reg : Registry) (name : Bytes) : Prop :=
  ∀ i p, reg.getContextString name = some i → (reg.get i).p = some p → p.query = false

section Long

variable {σ : Type} {env : Env Call Resp σ} {s : Shared} {w : σ} {uri : Bytes} {params : List Param}

/-- Nothing is handed to a plugin that is not asked. -/
theorem Unasked.not_handed (h : Unasked s.reg (yuarelParse uri).path) : wp env (lwnbdGetContext uri)
    (fun _ _ _ h => ∀ p handle ps n, Call.query p handle ps n ∉ calls h) s w := by
  refine wp_mono env ?_ lwnbdGetContext_ends
  rintro o s' w' _ ⟨t, rfl, hends⟩ p handle ps n hmem
  have hmem : Call.query p handle ps n ∈ calls t := by simpa using hmem
  cases hends with
  | unknown => cases hmem
  | null => cases hmem
  | declined hf hp hq => exact absurd (h _ _ hf hp) (by simp [hq])
  | unsized hf hp ha _ =>
    cases ha with
    | unasked => cases hmem
    | accepted hq => exact absurd (h _ _ hf hp) (by simp [hq])
  | sized hf hp ha _ _ =>
    cases ha with
    | unasked => simp at hmem
    | accepted hq => exact absurd (h _ _ hf hp) (by simp [hq])

/-- **Queries longer than the array.** Whatever is asked for with more than `MAX_QUERY` parameters,
the query callback is handed exactly the first of them if and only if it is not called. -/
theorem long_query_iff (env : Env Call Resp σ) (s : Shared) (w : σ) (uri : Bytes)
    (params : List Param) (hquery : (yuarelParse uri).query = some (queryString params))
    (h : Delimited params) (hlen : MAX_QUERY < params.length) :
    HandedExactly params ((lwnbdGetContext uri).run env s w).trace ↔
    Unasked s.reg (yuarelParse uri).path := by
  constructor
  · intro hh i p hf hp
    by_contra hq
    rw [Bool.not_eq_false] at hq
    have hparse := yuarelParseQuery_long h hlen
    have hcall : Call.query p (s.reg.get i).handle (params.take (MAX_QUERY - 1) ++
        [findAndTerminate (queryString (params.drop (MAX_QUERY - 1))) '='.toUInt8]) MAX_QUERY ∈
          calls ((lwnbdGetContext uri).run env s w).trace := by
      refine List.mem_of_mem_filter (p := Call.isQuery) ?_
      rw [lwnbdGetContext_eq, note, Prog.run_bind, Prog.run_perform, Result.andThen, hquery,
        hparse, calls_append, List.filter_append, queries_findContext env hf hp hq]
      exact List.mem_append_right _ List.mem_cons_self
    obtain ⟨-, -, hfree⟩ := hh _ _ _ _ hcall
    obtain ⟨hkey, hval⟩ := hfree _ (List.mem_append_right _ List.mem_cons_self)
    have hdelim : '&'.toUInt8 ∈ queryString (params.drop (MAX_QUERY - 1)) := by
      refine delimiter_mem_queryString ?_
      rw [List.length_drop]
      unfold MAX_QUERY at hlen ⊢
      omega
    have hne : '&'.toUInt8 ≠ '='.toUInt8 := by decide
    rcases mem_findAndTerminate hne hdelim with hmem | ⟨v, hv, hmem⟩
    · exact hkey hmem
    · exact hval v hv hmem
  · intro hno p handle ps n hmem
    have hnone : wp env (lwnbdGetContext uri) (fun _ _ _ h => ∀ p handle ps n,
        Call.query p handle ps n ∉ calls h)
      s w := hno.not_handed
    exact absurd hmem (hnone p handle ps n)

end Long

namespace Sample

/-- `a=1`, `b=2`, `c=3` and `d=4`. -/
def four : List Param :=
  [([97], some [49]), ([98], some [50]), ([99], some [51]), ([100], some [52])]

theorem four_delimited : Delimited four := ⟨by decide, by decide⟩

/-- `a?a=1&b=2&c=3&d=4`. -/
def long : Bytes := uriString none [97] (some (queryString four)) none

/-- The export `a` has no query callback. -/
theorem long_query_iff_unasked :
    HandedExactly four ((lwnbdGetContext long).run quiet ⟨Sample.ctx, exporting.reg⟩ ()).trace := by
  refine (long_query_iff quiet ⟨Sample.ctx, exporting.reg⟩ () long four
    (by decide +kernel) four_delimited (by decide)).mpr fun i p hf hp => ?_
  have hslot : exporting.reg.getContextString (yuarelParse long).path = some slot := by
    decide +kernel
  have hplugin : (exporting.reg.get slot).p = some Sample.plugin := by decide +kernel
  cases hslot.symm.trans hf
  cases hplugin.symm.trans hp
  rfl

/-- A plugin that can be asked. -/
def asked : Plugin := { Sample.plugin with query := true }

/-- The table with an export `a` that can be asked. -/
def askable : Registry :=
  (Registry.empty.mark slot).update slot fun _ => ⟨0, some asked, [97], [109], 0⟩

/-- **The third of four parameters is `c=3&d=4`.** -/
theorem third_keeps_rest :
    ¬ ∀ (σ : Type) (env : Env Call Resp σ) (s : Shared) (w : σ) (uri : Bytes) (params : List Param),
      (yuarelParse uri).query = some (queryString params) → Delimited params →
      MAX_QUERY < params.length →
      HandedExactly params ((lwnbdGetContext uri).run env s w).trace := by
  intro h
  have hh :=
    h _ quiet ⟨Sample.ctx, askable⟩ () long four (by decide +kernel) four_delimited (by decide)
  have hcall : Call.query asked 0 [([97], some [49]), ([98], some [50]),
      ([99], some [51, 38, 100, 61, 52])] 3 ∈
      calls ((lwnbdGetContext long).run quiet ⟨Sample.ctx, askable⟩ ()).trace := by decide +kernel
  exact absurd (hh _ _ _ _ hcall).1 (by decide)

end Sample

end LwNBD
