import LwNBD.Nbd.LongQueries
import LwNBD.Plugins.Query
import LwNBD.Resumption.Only

/-!
# What query callbacks read

The parser of queries tells `-1` where there is no query, or an empty one, and then fills no entry
of the array. `memory_query` and `mcman_query` count down from what it tells, so they read the
entries it has filled. `command_query` tests for `0`, which the parser never tells: without a query
it compares the names of its commands with an entry that was not filled.

## The model

* `parsedQuery` — what the parser makes of the query of a URI.
* `QueryPlugin` — the plugins that have a query callback.
* `SeesParsed` — what is expected of a callback.
* `QueryPlugin.Safe` — it is not the one of the command plugin, or has no command to look for, or
  there is a query.

## What is proved

* `lwnbdGetContext_only` — a callback is handed what was parsed.
* `only_whileParams`, `only_commandQuery` — how far a callback reads.
* `query_reads_iff` — a callback does as expected if and only if it is `Safe`.
-/

namespace LwNBD

open Resumption

/-! ### What is parsed -/

/-- What the parser makes of the query of a URI: its result, and the entries that it fills. -/
def parsedQuery (uri : Bytes) : ℤ × List Param :=
  yuarelParseQuery (yuarelParse uri).query '&'.toUInt8 MAX_QUERY

/-- There is no query, or an empty one. -/
def NoQuery (uri : Bytes) : Prop :=
  (yuarelParse uri).query = none ∨ (yuarelParse uri).query = some []

variable {uri : Bytes}

theorem NoQuery.parsed (h : NoQuery uri) : parsedQuery uri = (-1, []) := by
  unfold parsedQuery
  rcases h with h | h
  · rw [h]
    rfl
  · rw [h]
    rfl

theorem splitParams_ne_nil (delimiter : UInt8) (n : ℕ) (query : Bytes) :
    splitParams delimiter n query ≠ [] := by
  cases n with
  | zero => exact List.cons_ne_nil _ _
  | succ n =>
    rw [splitParams]
    rcases findAndTerminate query delimiter with ⟨param, rest | rest⟩
    · exact List.cons_ne_nil _ _
    · exact List.cons_ne_nil _ _

/-- With a query the parser tells how many entries it fills, at least one. -/
theorem parsed_of_query (h : ¬ NoQuery uri) :
    (parsedQuery uri).1 = (parsedQuery uri).2.length ∧ (parsedQuery uri).2 ≠ [] := by
  obtain ⟨query, hquery⟩ : ∃ query, (yuarelParse uri).query = some query :=
    Option.ne_none_iff_exists'.mp fun hnone => h (.inl hnone)
  have hne : query ≠ [] := fun hnil => h (.inr (hnil ▸ hquery))
  unfold parsedQuery
  rw [hquery, yuarelParseQuery_some hne]
  constructor
  · rw [List.length_map]
  · rw [Ne, List.map_eq_nil_iff]
    exact splitParams_ne_nil _ _ _

theorem parsed_ne_zero (uri : Bytes) : (parsedQuery uri).1 ≠ 0 := by
  by_cases h : NoQuery uri
  · rw [h.parsed]
    decide
  · obtain ⟨hlen, hne⟩ := parsed_of_query h
    have hpos := List.length_pos_of_ne_nil hne
    omega

/-- What is counted down from it is what it has filled. -/
theorem toNat_parsed (uri : Bytes) : (parsedQuery uri).1.toNat = (parsedQuery uri).2.length := by
  by_cases h : NoQuery uri
  · rw [h.parsed]
    rfl
  · rw [(parsed_of_query h).1, Int.toNat_natCast]

/-! ### What is handed -/

/-- A query callback is handed what was parsed. -/
def Call.Hands (parsed : ℤ × List Param) : Call → Prop
  | .query _ _ params nbParams => (nbParams, params) = parsed
  | _ => True

theorem lwnbdUpdateSize_only (parsed : ℤ × List Param) (i : ContextIdx) :
    (lwnbdUpdateSize i).Only (Call.Hands parsed) := by
  apply Prog.Only.read.bind
  intro s
  dsimp only
  cases (s.reg.get i).p with
  | none => trivial
  | some p =>
    apply Prog.Only.ite
    · exact (Prog.Only.perform trivial).bind fun _ => .modify _
    · trivial

/-- A callback that `lwnbd_get_context` calls is handed what was parsed. -/
theorem lwnbdGetContext_only (uri : Bytes) :
    (lwnbdGetContext uri).Only (Call.Hands (parsedQuery uri)) := by
  rw [lwnbdGetContext_eq]
  apply (Prog.Only.perform (e := Call.note _) trivial).bind
  intro _
  apply Prog.Only.read.bind
  intro s
  dsimp only
  cases s.reg.getContextString (yuarelParse uri).path with
  | none => trivial
  | some i =>
    dsimp only
    cases (s.reg.get i).p with
    | none => trivial
    | some p =>
      have hrest (ret : ℤ) :
          (if ret ≠ 0 then pure none else lwnbdUpdateSize i >>= fun _ => pure (some i) :
          Server (Option ContextIdx)).Only (Call.Hands (parsedQuery uri)) :=
        .ite (.pure _) ((lwnbdUpdateSize_only _ i).bind fun _ => .pure _)
      show Prog.Only _ (if p.query then _ else _)
      apply Prog.Only.ite
      · have hparsed :
            (Call.query p (s.reg.get i).handle (parsedQuery uri).2 (parsedQuery uri).1).Hands
            (parsedQuery uri) := rfl
        exact (Prog.Only.perform hparsed).bind hrest
      · exact (Prog.Only.pure (0 : ℤ)).bind hrest

/-! ### How far a callback reads -/

/-- Of the array, the first `n` entries only are read. -/
def QueryCall.Within (n : ℕ) : QueryCall → Prop
  | .param i => i < n
  | _ => True

theorem QueryCall.Within.mono {m n : ℕ} (h : m ≤ n) : ∀ e : QueryCall, e.Within m → e.Within n
  | .param _, hi => Nat.lt_of_lt_of_le hi h
  | .memset _, _ | .memcpy _, _ | .cmd .., _ | .mcinfoCmd, _ | .kelfbind _, _ => trivial

/-- A loop that counts down from `n` reads the first `n` entries, if each round reads its own. -/
theorem only_whileParams {body : ℕ → Callback Unit}
    (hbody : ∀ i, (body i).Only (QueryCall.Within (i + 1))) (n : ℕ) :
    (whileParams body n).Only (QueryCall.Within n) := by
  induction n with
  | zero => trivial
  | succ n ih => exact (hbody n).bind fun _ => ih.mono (QueryCall.Within.mono n.le_succ)

theorem only_memoryFilter (i : ℕ) : (memoryFilter i).Only (QueryCall.Within (i + 1)) := by
  apply (Prog.Only.perform (e := QueryCall.param i) i.lt_succ_self).bind
  intro param
  apply Prog.Only.ite (.perform trivial)
  apply Prog.Only.ite
  · cases param.2 with
    | none => exact .pure _
    | some val => exact .perform trivial
  · apply Prog.Only.ite
    · cases param.2 with
      | none => exact .pure _
      | some val =>
        exact (Prog.Only.perform (e := QueryCall.memset 0) trivial).bind fun _ => .perform trivial
    · exact .pure _

theorem only_mcmanCommand (i : ℕ) : (mcmanCommand i).Only (QueryCall.Within (i + 1)) := by
  apply (Prog.Only.perform (e := QueryCall.param i) i.lt_succ_self).bind
  intro param
  apply Prog.Only.ite
  · exact (Prog.Only.perform (e := QueryCall.mcinfoCmd) trivial).bind fun _ => .pure _
  · apply Prog.Only.ite
    · cases param.2 with
      | none => exact .pure _
      | some val =>
        exact (Prog.Only.perform (e := QueryCall.kelfbind val) trivial).bind fun _ => .pure _
    · exact .pure _

theorem only_findCommand (commands : List LwnbdCommand) :
    (findCommand commands).Only (QueryCall.Within 1) := by
  induction commands with
  | nil => exact .pure _
  | cons command commands ih =>
    apply (Prog.Only.perform (e := QueryCall.param 0) Nat.one_pos).bind
    intro param
    exact .ite (.pure _) ih

theorem only_commandQueryGet (pvhandle : LwnbdCommand) (n : ℤ) :
    (commandQueryGet pvhandle n).Only (QueryCall.Within 1) := by
  apply (Prog.Only.modify _).bind
  intro _
  apply (Prog.Only.perform (e := QueryCall.param 0) Nat.one_pos).bind
  intro argv
  apply (Prog.Only.perform (e := QueryCall.cmd pvhandle n argv) trivial).bind
  intro run
  apply Prog.Only.ite
  · trivial
  · exact (Prog.Only.modify _).bind fun _ => .pure _

/-- `command_query` reads the first entry, and no other. -/
theorem only_commandQuery (commands : List LwnbdCommand) (n : ℤ) :
    (commandQuery commands n).Only (QueryCall.Within 1) := by
  apply Prog.Only.ite
  · exact .pure _
  · apply (only_findCommand commands).bind
    rintro (_ | pvhandle)
    · exact .pure _
    · apply (Prog.Only.perform (e := QueryCall.param 0) Nat.one_pos).bind
      intro param
      dsimp only
      cases pvhandle.type with
      | get => exact only_commandQueryGet _ _
      | post => exact (Prog.Only.modify _).bind fun _ => .pure _

/-! ### Every callback -/

/-- The plugins that have a query callback. -/
inductive QueryPlugin where
  /-- `memory`. -/
  | memory
  /-- `mcman`. -/
  | mcman
  /-- `command`, with these commands registered. -/
  | command (commands : List LwnbdCommand)

/-- The query callback. -/
def QueryPlugin.query : QueryPlugin → ℤ → Callback ℤ
  | .memory => memoryQuery
  | .mcman => mcmanQuery
  | .command commands => commandQuery commands

/-- A callback sees only parsed parameters: what it does, and how it ends, when it is called for a
URI. -/
structure SeesParsed (plugin : QueryPlugin) (uri : Bytes) (o : Outcome ℤ)
    (h : List (Event QueryCall QueryResp)) : Prop where
  /-- It reads no entry that the parser has not filled. -/
  reads : ∀ i, QueryCall.param i ∈ calls h → i < (parsedQuery uri).2.length
  /-- Without a query, or with an empty one, it does nothing. -/
  idle : NoQuery uri → h = []
  /-- And `command_query` then returns `-1`. -/
  refused : NoQuery uri → ∀ commands, plugin = .command commands → o = .ret (-1)

/-- It is not the callback of the command plugin, or no command is registered, or there is a
query. -/
def QueryPlugin.Safe (plugin : QueryPlugin) (uri : Bytes) : Prop :=
  ∀ commands, plugin = .command commands → commands = [] ∨ ¬ NoQuery uri

section Runs

variable {τ : Type} {host : Env QueryCall QueryResp τ} {v : CommandStatics} {x : τ} {n : ℕ}

/-- What a callback that reads the first `n` entries reads. -/
theorem reads_lt_of_only {p : Callback ℤ} (h : p.Only (QueryCall.Within n)) {i : ℕ}
    (hi : QueryCall.param i ∈ calls (p.run host v x).trace) : i < n := h.calls host v x _ hi

theorem seesParsed_while {plugin : QueryPlugin} {body : ℕ → Callback Unit}
    (hplugin : ∀ commands, plugin ≠ .command commands)
    (hbody : ∀ i, (body i).Only (QueryCall.Within (i + 1))) :
    let z := (whileParams body (parsedQuery uri).1.toNat >>= fun _ => pure (0 : ℤ)).run host v x
    SeesParsed plugin uri z.out z.trace where
  reads i hi := by
    rw [← toNat_parsed]
    exact reads_lt_of_only ((only_whileParams hbody _).bind fun _ => .pure _) hi
  idle hno := by
    rw [hno.parsed]
    rfl
  refused _ commands h := absurd h (hplugin commands)

theorem seesParsed_commandQuery (commands : List LwnbdCommand) (hquery : ¬ NoQuery uri) :
    let z := (commandQuery commands (parsedQuery uri).1).run host v x
    SeesParsed (.command commands) uri z.out z.trace where
  reads i hi := by
    have hfirst : i < 1 := reads_lt_of_only (only_commandQuery commands _) hi
    exact Nat.lt_of_lt_of_le hfirst (List.length_pos_of_ne_nil (parsed_of_query hquery).2)
  idle hno := absurd hno hquery
  refused hno := absurd hno hquery

/-- With a command to look for, the first entry is read whether or not it is filled. -/
theorem commandQuery_reads (command : LwnbdCommand) (commands : List LwnbdCommand) (uri : Bytes) :
    QueryCall.param 0 ∈ calls ((commandQuery (command :: commands) (parsedQuery uri).1).run
      host v x).trace := by
  rw [commandQuery, if_neg (parsed_ne_zero uri), findCommand]
  exact List.mem_cons_self

end Runs

/-- **Query callbacks see only parsed parameters.** Whatever URI is looked up, the callback that is
called does as expected if and only if it is not the one of the command plugin, or no command is
registered, or there is a query. -/
theorem query_reads_iff {σ τ : Type} (env : Env Call Resp σ) (s : Shared) (w : σ)
    (uri : Bytes) (p : Plugin) (handle : Handle) (params : List Param) (nbParams : ℤ)
    (hcall : Call.query p handle params nbParams ∈ calls ((lwnbdGetContext uri).run env s w).trace)
    (plugin : QueryPlugin) (host : Env QueryCall QueryResp τ) (v : CommandStatics) (x : τ) :
    let z := (plugin.query nbParams).run host v x
    SeesParsed plugin uri z.out z.trace ↔ plugin.Safe uri := by
  have hparsed : (nbParams, params) = parsedQuery uri :=
    (lwnbdGetContext_only uri).calls env s w _ hcall
  obtain rfl : nbParams = (parsedQuery uri).1 := congrArg Prod.fst hparsed
  dsimp only
  constructor
  · rintro h (_ | ⟨command, commands⟩) rfl
    · exact .inl rfl
    · refine .inr fun hno => ?_
      have hread := h.reads 0 (commandQuery_reads command commands uri)
      rw [hno.parsed] at hread
      exact absurd hread (Nat.not_lt_zero 0)
  · intro hsafe
    match plugin with
    | .memory => exact seesParsed_while (by simp) only_memoryFilter
    | .mcman => exact seesParsed_while (by simp) only_mcmanCommand
    | .command commands =>
      rcases hsafe commands rfl with rfl | hquery
      · -- the loop over no commands reads nothing
        have hrun : (commandQuery [] (parsedQuery uri).1).run host v x = ⟨.ret (-1), v, x, []⟩ := by
          rw [commandQuery, if_neg (parsed_ne_zero uri)]
          rfl
        rw [QueryPlugin.query, hrun]
        exact ⟨by simp, fun _ => rfl, fun _ _ _ => rfl⟩
      · exact seesParsed_commandQuery commands hquery

namespace Sample

/-- A host whose commands succeed and store nothing. -/
def inert : Env QueryCall QueryResp Unit
  | _, .param _ => (([], none), ())
  | _, .cmd .. => (⟨0, [], 0⟩, ())
  | _, .memset _ | _, .memcpy _ => ((), ())
  | _, .mcinfoCmd | _, .kelfbind _ => ((0 : ℤ), ())

/-- The static variables as the loader leaves them. -/
def statics : CommandStatics := ⟨List.replicate CMD_BUFFER_SZ 0, 0, none⟩

/-- The memory plugin, handed the last two of three parameters as one. -/
theorem query_reads_iff_long :
    let z := (QueryPlugin.memory.query 3).run inert Sample.statics ()
    SeesParsed .memory long z.out z.trace :=
  (query_reads_iff quiet ⟨Sample.ctx, askable⟩ () long asked 0
    [([97], some [49]), ([98], some [50]), ([99], some [51, 38, 100, 61, 52])] 3
    (by decide +kernel) .memory inert
    Sample.statics ()).mpr fun _ h => nomatch h

/-- The command `lc`. -/
def lc : LwnbdCommand := ⟨literal "lc", .get, 0⟩

/-- **Without a query the command plugin reads an entry that was not filled**, when there is a
command. -/
theorem unparsed_read :
    ¬ ∀ (σ τ : Type) (env : Env Call Resp σ) (s : Shared) (w : σ) (uri : Bytes) (p :
      Plugin) (handle : Handle) (params : List Param) (nbParams : ℤ),
      Call.query p handle params nbParams ∈ calls ((lwnbdGetContext uri).run env s w).trace →
      ∀ (plugin : QueryPlugin) (leftover : ℕ →
      Param) (host : Env QueryCall QueryResp τ) (v : CommandStatics) (x : τ),
        let z := (plugin.query nbParams).run (handed params leftover host) v x
        SeesParsed plugin uri z.out z.trace := by
  intro h
  have hs :=
    h Unit Unit quiet ⟨Sample.ctx, askable⟩ () [97] asked 0 [] (-1) (by decide +kernel)
    (.command [lc]) (fun _ => ([], none)) inert Sample.statics ()
  exact absurd (hs.reads 0 List.mem_cons_self) (Nat.not_lt_zero 0)

end Sample

end LwNBD
