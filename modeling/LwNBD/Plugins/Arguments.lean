import LwNBD.Plugins.Results
import LwNBD.Resumption.Keeps

/-!
# The arguments of commands

A command is a function of an `argc` and an `argv`: its name, and the value if the query
`api?name=value` has one. The array of parameters, which are pairs of pointers, is passed for the
array of pointers. A `METHOD_GET` command is run when the URI is looked up, and a `METHOD_POST`
command later, at each write, from what the lookup saved: the number of arguments, and the address
of the array.

## The model

* `CommandUri` — what is looked up.
* `Invocation`, `asArgv`, `invokedIn` — a call of a command, and those that are made at the lookup.
* `commandPwrite` — the call that is made at a write.
* `CommandStatics.Reached` — the static variables as lookups leave them.
* `Conventional`, `AsDocumented` — how commands are to be called.

## What is proved

* `CommandStatics.Reached.post` — what is saved for a write is a `METHOD_POST` command.
* `arguments_iff` — a command is called so if and only if nothing is written. A write after the
  lookup of a `METHOD_POST` command calls it with one argument too many; one after the lookup of a
  `METHOD_GET` command calls another command, that was looked up before, or none that there is.
-/

namespace LwNBD

open Resumption

/-! ### What is looked up -/

/-- `api?name`, or `api?name=value`, and whatever parameters follow. -/
structure CommandUri where
  /-- The name and the value. -/
  param : Param
  /-- What follows the first `&`. -/
  more : Option Bytes
  /-- The name. -/
  key : '&'.toUInt8 ∉ param.1 ∧ '='.toUInt8 ∉ param.1 ∧ '#'.toUInt8 ∉ param.1
  /-- The value. -/
  val : ∀ v ∈ param.2, '&'.toUInt8 ∉ v ∧ '#'.toUInt8 ∉ v
  /-- What follows. -/
  more_number : ∀ q ∈ more, '#'.toUInt8 ∉ q
  /-- There is something after the `?`. -/
  ne_empty : param ≠ ([], none) ∨ more ≠ none

namespace CommandUri

variable (u : CommandUri)

/-- The query. -/
def query : Bytes := paramString u.param ++ afterSep '&'.toUInt8 u.more

/-- The URI. -/
def string : Bytes := uriString none (literal "api") (some u.query) none

theorem query_ne_nil : u.query ≠ [] := by
  intro hnil
  obtain ⟨hparam, hmore⟩ := List.append_eq_nil_iff.mp hnil
  obtain ⟨hkey, hval⟩ := List.append_eq_nil_iff.mp hparam
  have hnone : ∀ {c : UInt8} {part : Option Bytes}, afterSep c part = [] → part = none := by
    intro c part h
    cases part with
    | none => rfl
    | some b => exact absurd h (List.cons_ne_nil _ _)
  rcases u.ne_empty with h | h
  · exact h (Prod.ext hkey (hnone hval))
  · exact h (hnone hmore)

/-- The first parameter is the name, with the value. -/
theorem parsed : ∃ params, (parsedQuery u.string).2 = u.param :: params := by
  have hname : Plain (literal "api") := ⟨by decide, by decide, by decide⟩
  have hamp : '&'.toUInt8 ∉ paramString u.param :=
    Askable.notMem_paramString (by decide) u.key.1 fun v hv => (u.val v hv).1
  have hnumber : '#'.toUInt8 ∉ u.query := by
    rw [query, List.mem_append]
    rintro (h | h)
    · exact Askable.notMem_paramString (by decide) u.key.2.2 (fun v hv => (u.val v hv).2) h
    · exact notMem_afterSep (by decide) u.more_number h
  have hquery : ∀ q ∈ some u.query, '#'.toUInt8 ∉ q := by
    rintro q ⟨rfl⟩
    exact hnumber
  rw [parsedQuery, string, yuarelParse_uriString (by simp) hname hquery,
    yuarelParseQuery_some u.query_ne_nil]
  obtain ⟨rest, hrest⟩ : ∃ rest, splitParams '&'.toUInt8 (MAX_QUERY - 1) u.query =
      paramString u.param :: rest := by
    rw [show MAX_QUERY - 1 = 1 + 1 from rfl, splitParams, query, findAndTerminate_append hamp]
    cases u.more with
    | none => exact ⟨[], rfl⟩
    | some b => exact ⟨_, rfl⟩
  dsimp only
  rw [hrest, List.map_cons, paramString, findAndTerminate_append u.key.2.1]
  exact ⟨_, rfl⟩

end CommandUri

/-! ### How commands are called -/

/-- A call of a command, and what the command finds in `argv`: strings, or `NULL`. The buffer and
the size that it is handed are left out. -/
structure Invocation where
  /-- The command. -/
  pvhandle : LwnbdCommand
  /-- `argc`. -/
  argc : ℤ
  /-- `argv[j]`. -/
  argv : ℕ → Option Bytes

/-- `(char **)&params[0]`: the array of pairs of pointers, as an array of pointers. -/
def asArgv (params : ℕ → Param) (j : ℕ) : Option Bytes :=
  if j % 2 = 0 then some (params (j / 2)).1 else (params (j / 2)).2

/-- The calls of commands among the calls of a callback that was handed this array. -/
def invokedIn (params : ℕ → Param) (h : List (Event QueryCall QueryResp)) : List Invocation :=
  h.filterMap fun e => match e with
    | ⟨.cmd pvhandle argc _, _⟩ => some ⟨pvhandle, argc, asArgv params⟩
    | _ => none

/-- `command_pwrite`: the call that it makes, where `stack` is what is left where the array was. -/
def commandPwrite (s : CommandStatics) (stack : ℕ → Option Bytes) : Outcome Invocation :=
  match s.pp with
  | none => .halt .undefined
  | some pp => .ret ⟨pp.pvhandle, pp.nbParams + 1, stack⟩

/-- The arguments that a command is to be called with: its name, and the value if there is one. -/
def arguments (param : Param) : List Bytes := param.1 :: param.2.toList

/-- A command is called with its arguments. -/
structure Conventional (param : Param) (inv : Invocation) : Prop where
  /-- `argc` counts them. -/
  argc : inv.argc = (arguments param).length
  /-- `argv` holds them. -/
  argv : ∀ j < (arguments param).length, inv.argv j = (arguments param)[j]?

/-- Commands are called as documented: a `METHOD_GET` command once, at the lookup; what is called at
each write is the command that was looked up, and not another. -/
structure AsDocumented (param : Param) (pvhandle : LwnbdCommand) (lookup : List Invocation)
    (writes : List (Outcome Invocation)) : Prop where
  /-- `METHOD_GET`. -/
  get : pvhandle.type = .get → ∃ inv, lookup = [inv] ∧ inv.pvhandle = pvhandle ∧
    Conventional param inv
  /-- `METHOD_POST`. -/
  post : pvhandle.type = .post → lookup = []
  /-- The writes. -/
  write : ∀ o ∈ writes, ∃ inv, o = .ret inv ∧ inv.pvhandle = pvhandle ∧ Conventional param inv

/-- Calls with the arguments of one URI have the same arguments. -/
theorem Conventional.same {param : Param} {inv inv' : Invocation} (h : Conventional param inv)
    (h' : Conventional param inv') : inv.argc = inv'.argc ∧ ∀ j : ℕ, j < inv.argc →
    inv.argv j = inv'.argv j := by
  refine ⟨h.argc.trans h'.argc.symm, fun j hj => ?_⟩
  rw [h.argc, Int.ofNat_lt] at hj
  rw [h.argv j hj, h'.argv j hj]

/-- The number that `command_query` makes of the first entry. -/
theorem length_arguments (param : Param) :
    ((arguments param).length : ℤ) = if param.2 = none then 1 else 2 := by
  obtain ⟨name, _ | val⟩ := param
  · rfl
  · rfl

/-- The array is what it is taken for, as far as its first entry. -/
theorem conventional_asArgv (pvhandle : LwnbdCommand) (params : ℕ → Param) {param : Param}
    (h : params 0 = param) :
    Conventional param ⟨pvhandle, (arguments param).length, asArgv params⟩ := by
  subst h
  refine ⟨rfl, fun j hj => ?_⟩
  have hle : (arguments (params 0)).length ≤ 2 := by
    have := length_arguments (params 0)
    split_ifs at this <;> omega
  match j with
  | 0 => rfl
  | 1 =>
    show (params 0).2 = (params 0).2.toList[0]?
    cases h : (params 0).2 with
    | none =>
      rw [arguments, h] at hj
      exact absurd hj (by simp)
    | some val => rfl
  | j + 2 => omega

theorem invokedIn_eq_nil {params : ℕ → Param} {h : List (Event QueryCall QueryResp)}
    (hran : ranIn h = []) : invokedIn params h = [] := by
  rw [ranIn, List.filterMap_eq_nil_iff] at hran
  rw [invokedIn, List.filterMap_eq_nil_iff]
  intro e he
  have hnone := hran e he
  obtain ⟨e, r⟩ := e
  cases e <;> first | rfl | cases hnone

/-! ### The two paths -/

section Paths

variable {τ : Type} {host : Env QueryCall QueryResp τ} {v : CommandStatics} {x : τ} {param : Param}
  {params : List Param} {leftover : ℕ → Param} {commands : List LwnbdCommand}
  {pvhandle : LwnbdCommand} {n : ℤ}

/-- What is in the array. -/
def entries (params : List Param) (leftover : ℕ → Param) (i : ℕ) : Param :=
  params.getD i (leftover i)

/-- At the lookup, a `METHOD_GET` command is called with its arguments. -/
theorem invokedIn_get (hn : n ≠ 0) (hfind : commands.find? (param.1 = ·.name) = some pvhandle)
    (hget : pvhandle.type = .get) :
    wp (handed (param :: params) leftover host) (commandQuery commands n)
      (fun _ _ _ h => ∃ inv, invokedIn (entries (param :: params) leftover) h = [inv] ∧
      inv.pvhandle = pvhandle ∧
        Conventional param inv) v x := by
  refine wp_commandQuery hn hfind fun h hran => ?_
  rw [hget, ← length_arguments]
  refine wp_mono _ ?_ wp_commandQueryGet
  rintro o v' x' h' ⟨run, -, rfl, -, -⟩
  refine ⟨_, ?_, rfl, conventional_asArgv pvhandle (entries (param :: params) leftover) rfl⟩
  rw [invokedIn, List.filterMap_append, ← invokedIn, invokedIn_eq_nil hran]
  rfl

/-- A `METHOD_POST` command is not called at the lookup; what is saved is the number of its
arguments. -/
theorem invokedIn_post (hn : n ≠ 0) (hfind : commands.find? (param.1 = ·.name) = some pvhandle)
    (hpost : pvhandle.type = .post) :
    wp (handed (param :: params) leftover host) (commandQuery commands n)
      (fun _ v' _ h => invokedIn (entries (param :: params) leftover) h = [] ∧
        v'.pp = some ⟨pvhandle, (arguments param).length⟩) v x := by
  refine wp_commandQuery hn hfind fun h hran => ?_
  rw [hpost, ← length_arguments]
  rw [commandQueryPost, wp_bind, wp_modify, Post.seq_ret, wp_pure]
  exact ⟨invokedIn_eq_nil (by simpa using hran), rfl⟩

/-- At a write, a command is not called with its arguments: there is one too many. -/
theorem not_conventional_write {s : CommandStatics}
    (hpp : s.pp = some ⟨pvhandle, (arguments param).length⟩) (stack : ℕ → Option Bytes) :
    ¬ ∃ inv, commandPwrite s stack = .ret inv ∧ inv.pvhandle = pvhandle ∧
      Conventional param inv := by
  rintro ⟨inv, hret, -, hinv⟩
  rw [commandPwrite, hpp] at hret
  cases hret
  have hargc := hinv.argc
  dsimp only at hargc
  omega

/-- What is saved is a `METHOD_POST` command. -/
def CommandStatics.SavesPost (v : CommandStatics) : Prop := ∀ pp ∈ v.pp, pp.pvhandle.type = .post

/-- A lookup saves no `METHOD_GET` command: what was saved stays, or it is the `METHOD_POST` command
that was found. -/
theorem commandQuery_savesPost (commands : List LwnbdCommand) (n : ℤ) (v : CommandStatics) :
    (commandQuery commands n).Keeps (fun v v' => v.SavesPost → v'.SavesPost) (fun _ => True) v := by
  have hrefl : ∀ v : CommandStatics, v.SavesPost → v.SavesPost := fun _ h => h
  have htrans : ∀ v v' v'' : CommandStatics, (v.SavesPost → v'.SavesPost) →
      (v'.SavesPost → v''.SavesPost) → v.SavesPost → v''.SavesPost := fun _ _ _ h h' hv => h' (h hv)
  have hfind : ∀ (commands : List LwnbdCommand) (v : CommandStatics), (findCommand commands).Keeps
      (fun v v' => v.SavesPost → v'.SavesPost) (fun _ => True) v := by
    intro commands
    induction commands with
    | nil => exact fun v => .pure hrefl trivial
    | cons command commands ih =>
      refine fun v => .bind htrans (.perform hrefl (QueryCall.param 0)) fun param v' _ _ => ?_
      exact .ite (fun _ => .pure hrefl trivial) fun _ => ih v'
  refine .ite (fun _ => .pure hrefl trivial) fun _ =>
    .bind htrans (hfind commands v) fun found v₁ _ _ => ?_
  cases found with
  | none => exact .pure hrefl trivial
  | some pvhandle =>
    refine .bind htrans (.perform hrefl (QueryCall.param 0)) fun param v₂ _ _ => ?_
    dsimp only
    generalize (if param.2 = none then 1 else 2) = argc
    cases htype : pvhandle.type with
    | get =>
      refine .bind htrans (.modify fun h => h) fun _ v₃ _ _ => ?_
      refine .bind htrans (.perform hrefl (QueryCall.param 0)) fun argv v₄ _ _ => ?_
      refine .bind htrans (.perform hrefl _) fun run v₅ _ _ => ?_
      refine .ite (fun _ => .halt hrefl _) fun _ => ?_
      exact .bind htrans (.modify fun h => h) fun _ _ _ _ => .pure hrefl trivial
    | post =>
      refine .bind htrans (.modify ?_) fun _ _ _ _ => .pure hrefl trivial
      rintro - pp ⟨⟩
      exact htype

/-- The static variables as lookups leave them, of whatever commands are registered by then. -/
inductive CommandStatics.Reached : CommandStatics → Prop where
  /-- As the loader leaves them. -/
  | start : Reached ⟨List.replicate CMD_BUFFER_SZ 0, 0, none⟩
  /-- A lookup. -/
  | query {τ : Type} {v : CommandStatics} (commands : List LwnbdCommand) (nbParams : ℤ)
    (host : Env QueryCall QueryResp τ) (x : τ) : Reached v →
    Reached ((commandQuery commands nbParams).run host v x).mem

/-- What is saved for a write is a `METHOD_POST` command. -/
theorem CommandStatics.Reached.post (h : v.Reached) : v.SavesPost := by
  induction h with
  | start =>
    rintro pp ⟨⟩
  | query commands nbParams host x _ ih =>
    exact (commandQuery_savesPost commands nbParams _ _ host x).1 ih

/-- At a write after the lookup of a `METHOD_GET` command that command is not called. -/
theorem not_called_write {s : CommandStatics} (hpp : s.SavesPost) (hget : pvhandle.type = .get)
    (stack : ℕ → Option Bytes) :
    ¬ ∃ inv, commandPwrite s stack = .ret inv ∧ inv.pvhandle = pvhandle ∧
      Conventional param inv := by
  rintro ⟨inv, hret, hcalled, -⟩
  rw [commandPwrite] at hret
  cases hsaved : s.pp with
  | none =>
    rw [hsaved] at hret
    cases hret
  | some pp =>
    rw [hsaved] at hret
    cases hret
    have hpost := hpp pp hsaved
    dsimp only at hcalled
    rw [hcalled, hget] at hpost
    cases hpost

end Paths

/-- **The arguments of commands.** Whatever URI names a command, whatever was looked up before, and
whatever is left on the stack, commands are called as documented, at the lookup and at the writes
that follow, if and only if nothing is written. -/
theorem arguments_iff {σ τ : Type} (env : Env Call Resp σ) (s : Shared) (w : σ)
    (u : CommandUri) (p : Plugin) (handle : Handle) (params : List Param) (nbParams : ℤ)
    (hcall : Call.query p handle params nbParams ∈
      calls ((lwnbdGetContext u.string).run env s w).trace)
    (commands : List LwnbdCommand) (pvhandle : LwnbdCommand)
    (hfind : commands.find? (u.param.1 = ·.name) = some pvhandle) (leftover : ℕ → Param)
    (host : Env QueryCall QueryResp τ) (v : CommandStatics) (hv : v.Reached) (x : τ)
    (writes : List (ℕ → Option Bytes)) :
    let z := (commandQuery commands nbParams).run (handed params leftover host) v x
    AsDocumented u.param pvhandle (invokedIn (entries params leftover) z.trace)
    (writes.map (commandPwrite z.mem)) ↔
      writes = [] := by
  have hparsed : (nbParams, params) = parsedQuery u.string :=
    (lwnbdGetContext_only u.string).calls env s w _ hcall
  have hn : nbParams ≠ 0 := by
    rw [show nbParams = (parsedQuery u.string).1 from congrArg Prod.fst hparsed]
    exact parsed_ne_zero u.string
  obtain ⟨params', hparams'⟩ := u.parsed
  obtain rfl : params = u.param :: params' := (congrArg Prod.snd hparsed).trans hparams'
  intro z
  constructor
  · intro h
    match writes with
    | [] => rfl
    | stack :: writes =>
      have hwrite := h.write _ List.mem_cons_self
      cases htype : pvhandle.type with
      | get =>
        have hpost : z.mem.SavesPost := (hv.query commands nbParams _ x).post
        exact absurd hwrite (not_called_write hpost htype stack)
      | post =>
        obtain ⟨-, hpp⟩ : wp (handed (u.param :: params') leftover host)
            (commandQuery commands nbParams) _ v x :=
          invokedIn_post hn hfind htype
        exact absurd hwrite (not_conventional_write hpp stack)
  · rintro rfl
    refine ⟨fun hget => ?_, fun hpost => ?_, by simp⟩
    · have hlookup : wp (handed (u.param :: params') leftover host) (commandQuery commands nbParams)
          _ v x :=
        invokedIn_get hn hfind hget
      exact hlookup
    · obtain ⟨hlookup, -⟩ : wp (handed (u.param :: params') leftover host)
          (commandQuery commands nbParams) _ v x :=
        invokedIn_post hn hfind hpost
      exact hlookup

namespace Sample

/-- `api?lc=1`. -/
def lcUri : CommandUri :=
  ⟨(literal "lc", some (literal "1")), none, by decide, by decide, by decide, by decide⟩

/-- `api?wc`. -/
def wcUri : CommandUri := ⟨(literal "wc", none), none, by decide, by decide, by decide, by decide⟩

/-- The command `wc`. -/
def wc : LwnbdCommand := ⟨literal "wc", .post, 1⟩

/-- `api?lc=1` is looked up. -/
theorem arguments_iff_lc :
    let z :=
      (commandQuery [lc] 1).run
      (handed [(literal "lc", some (literal "1"))] (fun _ => ([], none)) inert)
      Sample.statics ()
    AsDocumented lcUri.param lc
    (invokedIn (entries [(literal "lc", some (literal "1"))] fun _ => ([], none)) z.trace)
      [] :=
  (arguments_iff quiet ⟨Sample.ctx, apiTable⟩ () lcUri api 0 [(literal "lc", some (literal "1"))] 1
    (by decide +kernel) [lc] lc (by decide) (fun _ => ([], none)) inert Sample.statics
    .start () []).mpr rfl

/-- **A `METHOD_POST` command is told of one argument too many**: `wc`, of two when there is its
name only. -/
theorem wc_not_documented :
    ¬ ∀ (σ τ : Type) (env : Env Call Resp σ) (s : Shared) (w : σ) (u : CommandUri) (p :
      Plugin) (handle : Handle) (params : List Param) (nbParams : ℤ),
      Call.query p handle params nbParams ∈ calls ((lwnbdGetContext u.string).run env s w).trace →
      ∀ (commands : List LwnbdCommand) (pvhandle : LwnbdCommand),
        commands.find? (u.param.1 = ·.name) = some pvhandle →
        ∀ (leftover : ℕ → Param) (host : Env QueryCall QueryResp τ) (v : CommandStatics),
        v.Reached →
          ∀ (x : τ) (writes : List (ℕ → Option Bytes)),
          let z := (commandQuery commands nbParams).run (handed params leftover host) v x
          AsDocumented u.param pvhandle (invokedIn (entries params leftover) z.trace)
            (writes.map (commandPwrite z.mem)) := by
  intro h
  have hdoc := h Unit Unit quiet ⟨Sample.ctx, apiTable⟩ () wcUri api 0 [(literal "wc", none)] 1
    (by decide +kernel) [wc]
    wc (by decide) (fun _ => ([], none)) inert Sample.statics .start () [fun _ => none]
  obtain ⟨inv, hret, -, hinv⟩ := hdoc.write _ List.mem_cons_self
  cases hret
  exact absurd hinv.argc (by decide)

end Sample

end LwNBD
