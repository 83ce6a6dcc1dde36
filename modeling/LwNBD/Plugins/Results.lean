import LwNBD.Plugins.Params

/-!
# The results of commands

A client looks up `api?name`: its command is run then, and leaves its result and its size in static
variables of the command plugin. The size is taken at the end of the lookup, and the result is read
by later requests. Another client's command that runs in between leaves its own there.

## The model

* `ApiClient` — a client that looks up a `METHOD_GET` command, and reads.
* `Desk`, `desk` — the command plugin as its clients call it, with a record of what each has run and
  was given.
* `Belongs` — what each was given is of its own command: of a read, the bytes at its offset.
* `Undisturbed` — when a client is given something, the last command that was run is its own; what
  it reads is what the result starts with; and no command stores more than the buffer holds.

## What is proved

* `commandQuery_get` — what a `METHOD_GET` command leaves.
* `Desk.Sound.step` — the static variables hold what the last command left, after any call.
* `results_belong` — in every run that is `Undisturbed` throughout, what each client was given is of
  its own command.
-/

namespace LwNBD

open Resumption

/-! ### What a command leaves -/

/-- The runs of commands among the calls of a callback. -/
def ranIn (h : List (Event QueryCall QueryResp)) : List CmdRun :=
  h.filterMap fun e => match e with
    | ⟨.cmd .., run⟩ => some run
    | _ => none

@[simp] theorem ranIn_append (h h' : List (Event QueryCall QueryResp)) :
    ranIn (h ++ h') = ranIn h ++ ranIn h' :=
  List.filterMap_append

/-- What a command leaves in `result`. -/
def resultOf (run : CmdRun) : Bytes := store (List.replicate CMD_BUFFER_SZ 0) run.output

section Get

variable {σ : Type} {leftover : ℕ → Param} {host : Env QueryCall QueryResp σ} {param : Param}
  {params : List Param} {commands : List LwnbdCommand} {pvhandle : LwnbdCommand}
  {v : CommandStatics} {x : σ} {n : ℤ}

/-- The search for a command finds the first of the name in the first entry. -/
theorem wp_findCommand :
    wp (handed (param :: params) leftover host) (findCommand commands) (fun o v' x' h =>
    o = .ret (commands.find? (param.1 = ·.name)) ∧ v' = v ∧ x' = x ∧ ranIn h = []) v x := by
  induction commands with
  | nil => exact ⟨rfl, rfl, rfl, rfl⟩
  | cons command commands ih =>
    rw [findCommand, paramAt, wp_bind, wp_perform, Post.seq_ret]
    show wp _ (if param.1 = command.name then pure (some command) else findCommand commands) _ v x
    by_cases h : param.1 = command.name
    · rw [if_pos h, List.find?_cons_of_pos (by simpa using h)]
      exact ⟨rfl, rfl, rfl, rfl⟩
    · rw [if_neg h, List.find?_cons_of_neg (by simpa using h)]
      exact ih

/-- What a command leaves, when `result` holds what it stored. -/
structure LeftBy (run : CmdRun) (o : Outcome ℤ) (v' : CommandStatics) : Prop where
  /-- Its result is returned. -/
  out : o = .ret run.ret
  /-- Its size. -/
  exportsize : v'.exportsize = run.size
  /-- What it stored. -/
  result : v'.result = resultOf run

/-- The command is run on cleared variables, with the first entry. -/
theorem wp_commandQueryGet :
    wp (handed (param :: params) leftover host) (commandQueryGet pvhandle n)
    (fun o v' _ h => ∃ run, run = (host x (.cmd pvhandle n param)).1 ∧
      h = [⟨.param 0, param⟩, ⟨.cmd pvhandle n param, run⟩] ∧
      (run.output.length ≤ CMD_BUFFER_SZ → LeftBy run o v') ∧
      (CMD_BUFFER_SZ < run.output.length → o = .halt .undefined)) v x := by
  rw [commandQueryGet, paramAt, wp_bind, wp_modify, Post.seq_ret, wp_bind, wp_perform,
    Post.seq_ret, wp_bind, wp_perform, Post.seq_ret]
  show wp _ (if CMD_BUFFER_SZ < (host x (.cmd pvhandle n param)).1.output.length then _ else _)
    _ _ _
  by_cases hlt : CMD_BUFFER_SZ < (host x (.cmd pvhandle n param)).1.output.length
  · rw [if_pos hlt]
    exact ⟨_, rfl, rfl, fun hle => absurd hlt (Nat.not_lt.mpr hle), fun _ => rfl⟩
  · rw [if_neg hlt, wp_bind, wp_modify, Post.seq_ret, wp_pure]
    refine ⟨_, rfl, rfl, fun _ => ⟨rfl, rfl, ?_⟩, fun h => absurd h hlt⟩
    -- the array of zeros is not to be computed
    dsimp only [handed, resultOf]
    rfl

/-- What `command_query` does when it has found the command, for its first entry has the name of
one. -/
theorem wp_commandQuery (hn : n ≠ 0) (hfind : commands.find? (param.1 = ·.name) = some pvhandle)
    {Q : Post CommandStatics QueryCall QueryResp σ ℤ} (hrest : ∀ h, ranIn h = [] →
      wp (handed (param :: params) leftover host) (match pvhandle.type with
        | .get => commandQueryGet pvhandle (if param.2 = none then 1 else 2)
        | .post => commandQueryPost pvhandle (if param.2 = none then 1 else 2)) (Q.after h) v x) :
    wp (handed (param :: params) leftover host) (commandQuery commands n) Q v x := by
  rw [commandQuery, if_neg hn, wp_bind]
  refine wp_mono _ ?_ wp_findCommand
  rintro o v' x' h ⟨rfl, rfl, rfl, hran⟩
  rw [hfind, Post.seq_ret, wp_bind, paramAt, wp_perform, Post.seq_ret, Post.after_after]
  refine hrest _ ?_
  rw [ranIn_append, hran]
  rfl

/-- What a `METHOD_GET` command leaves: its result and its size, whatever was there before. -/
theorem commandQuery_get (hn : n ≠ 0) (hfind : commands.find? (param.1 = ·.name) = some pvhandle)
    (hget : pvhandle.type = .get) :
    wp (handed (param :: params) leftover host) (commandQuery commands n)
      (fun o v' _ h => ∃ run, ranIn h = [run] ∧
      (run.output.length ≤ CMD_BUFFER_SZ → LeftBy run o v')) v x := by
  refine wp_commandQuery hn hfind fun h hran => ?_
  rw [hget]
  refine wp_mono _ ?_ wp_commandQueryGet
  rintro o v' x' h' ⟨run, -, rfl, hleft, -⟩
  refine ⟨run, ?_, hleft⟩
  rw [ranIn_append, hran]
  rfl

end Get

/-! ### The record -/

/-- What is recorded of the command plugin. -/
inductive Entry (ι : Type) where
  /-- The command of client `i` was run. -/
  | ran (i : ι) (run : CmdRun)
  /-- Client `i` was told the size. -/
  | size (i : ι) (exportsize : Int64)
  /-- Client `i` read at an offset, and was given this. -/
  | read (i : ι) (count : UInt32) (offset : UInt64) (data : Bytes)
  deriving DecidableEq

section Record

variable {ι : Type}

/-- The last run of a command in a record, which has the last entry first, and the client whose it
was. -/
def lastRun : List (Entry ι) → Option (ι × CmdRun)
  | [] => none
  | .ran i run :: _ => some (i, run)
  | .size .. :: log | .read .. :: log => lastRun log

variable [DecidableEq ι]

/-- The last run of the command of client `i`. -/
def ownRun (i : ι) : List (Entry ι) → Option CmdRun
  | [] => none
  | .ran j run :: log => if j = i then some run else ownRun i log
  | .size .. :: log | .read .. :: log => ownRun i log

/-- What a client is given, after this record, is of its own command: its size, and the bytes of its
result at the offset of the read. What the command stored, `result` held. -/
def Entry.Own (log : List (Entry ι)) : Entry ι → Prop
  | .ran _ run => run.output.length ≤ CMD_BUFFER_SZ
  | .size i exportsize => (ownRun i log).map CmdRun.size = some exportsize
  | .read i count offset data =>
    (ownRun i log).map (fun run => (resultOf run).slice offset.toNat count.toNat) = some data

/-- The results belong to the client that asked: all that was given is. -/
def Belongs (log : List (Entry ι)) : Prop := ∀ e older, e :: older <:+ log → e.Own older

theorem belongs_nil : Belongs ([] : List (Entry ι)) := fun _ _ h =>
  absurd (List.eq_nil_of_suffix_nil h) (List.cons_ne_nil _ _)

theorem belongs_cons {e : Entry ι} {log : List (Entry ι)} :
    Belongs (e :: log) ↔ e.Own log ∧ Belongs log := by
  constructor
  · intro h
    exact ⟨h e log List.suffix_rfl,
      fun e' older hsuffix => h e' older (hsuffix.trans (List.suffix_cons e log))⟩
  · rintro ⟨he, h⟩ e' older hsuffix
    rcases List.suffix_cons_iff.mp hsuffix with heq | hsuffix
    · cases heq
      exact he
    · exact h e' older hsuffix

/-- What was run last is one's own if one ran it. -/
theorem ownRun_of_lastRun {log : List (Entry ι)} {i : ι} {run : CmdRun}
    (h : lastRun log = some (i, run)) : ownRun i log = some run := by
  induction log with
  | nil => cases h
  | cons e log ih =>
    cases e with
    | ran j run' =>
      cases h
      exact if_pos rfl
    | size j n => exact ih h
    | read j count offset data => exact ih h

end Record

/-! ### The command plugin and its clients -/

/-- A parameter names a `METHOD_GET` command: the first of that name is one. -/
def NamesGet (commands : List LwnbdCommand) (param : Param) : Prop :=
  ∃ pvhandle, commands.find? (param.1 = ·.name) = some pvhandle ∧ pvhandle.type = .get

/-- A client of the api export. -/
structure ApiClient (commands : List LwnbdCommand) where
  /-- What it looks up. -/
  uri : Bytes
  /-- What it reads then: how much, and where. -/
  reads : List (UInt32 × UInt64)
  /-- It names a `METHOD_GET` command. -/
  get : ∃ param params, (parsedQuery uri).2 = param :: params ∧ NamesGet commands param
  /-- No more is read at a time than the buffer of a server holds. -/
  reads_le : ∀ r ∈ reads, r.1.toNat ≤ CMD_BUFFER_SZ

/-- Read the export that was found. -/
def readResult (i : ContextIdx) : List (UInt32 × UInt64) → Server Unit
  | [] => pure ()
  | (count, offset) :: reads => do
    let reg := (← Prog.read).reg
    let _ ← lwnbdPread (reg.get i) count offset
    readResult i reads

/-- What is done for a client: its URI is looked up, and the export that is found is read. -/
def ApiClient.run {commands : List LwnbdCommand} (client : ApiClient commands) : Server Unit := do
  match ← lwnbdGetContext client.uri with
  | none => pure ()
  | some i => readResult i client.reads

/-- The command plugin: its static variables, whatever its commands depend on, and the record. -/
structure Desk (ι σ : Type) where
  /-- The static variables. -/
  statics : CommandStatics
  /-- The rest of the host. -/
  host : σ
  /-- The record, the last entry first. -/
  log : List (Entry ι)

section Desk

variable {ι σ : Type} (api : Plugin) (commands : List LwnbdCommand) (leftover : ℕ → Param)
  (host : Env QueryCall QueryResp σ) (rest : Env Call Resp σ)

/-- The calls of client `i`: those of the plugin `api` go to the command plugin, and are
recorded. -/
def desk (i : ι) : Env Call Resp (Desk ι σ)
  | d, .query p handle params nbParams =>
    if p = api then
      let z := (commandQuery commands nbParams).run (handed params leftover host) d.statics d.host
      let ret := match z.out with
        | .ret r => r
        | .halt _ => -1
      (ret, ⟨z.mem, z.env, (ranIn z.trace).map (.ran i) ++ d.log⟩)
    else
      let r := rest d.host (.query p handle params nbParams)
      (r.1, { d with host := r.2 })
  | d, .getSize p handle =>
    if p = api then
      (commandGetSize d.statics, { d with log := .size i (commandGetSize d.statics) :: d.log })
    else
      let r := rest d.host (.getSize p handle)
      (r.1, { d with host := r.2 })
  | d, .pread p handle count offset =>
    if p = api then
      let data := commandPread d.statics count offset
      (⟨0, data⟩, { d with log := .read i count offset data :: d.log })
    else
      let r := rest d.host (.pread p handle count offset)
      (r.1, { d with host := r.2 })
  | d, e =>
    let r := rest d.host e
    (r.1, { d with host := r.2 })

/-- No other client's command comes in between, and the static variables hold what is asked for:
when client `i` is told the size, or reads, the last command that was run is its own; what it reads
is what `result` starts with; and a command that it has run stores no more than `result` holds. -/
def Undisturbed (i : ι) (e : Call) (d : Desk ι σ) : Prop :=
  match e with
  | .query p _ params nbParams => p = api →
    ∀ run ∈ ranIn ((commandQuery commands nbParams).run (handed params leftover host)
      d.statics d.host).trace, run.output.length ≤ CMD_BUFFER_SZ
  | .getSize p _ => p = api → (lastRun d.log).map Prod.fst = some i
  | .pread p _ count offset => p = api → (lastRun d.log).map Prod.fst = some i ∧
    d.statics.result.slice offset.toNat count.toNat = d.statics.result.slice 0 count.toNat
  | _ => True

instance [DecidableEq ι] (i : ι) (e : Call) (d : Desk ι σ) :
    Decidable (Undisturbed api commands leftover host i e d) :=
  match e with
  | .query .. => inferInstanceAs (Decidable (_ → _))
  | .getSize .. => inferInstanceAs (Decidable (_ → _))
  | .pread .. => inferInstanceAs (Decidable (_ → _))
  | .recv .. | .send .. | .pwrite .. | .flush .. => isTrue trivial
  | .blockSize .. | .getDefaultexport | .uninit _ | .note _ => isTrue trivial

/-- The static variables hold what the last command left, and what was given belongs. -/
structure Desk.Sound [DecidableEq ι] (d : Desk ι σ) : Prop where
  /-- The static variables. -/
  left : ∀ i run, lastRun d.log = some (i, run) → d.statics.exportsize = run.size ∧
    d.statics.result = resultOf run
  /-- The record. -/
  belongs : Belongs d.log

/-! ### Every run -/

variable {api commands leftover host rest} {d : Desk ι σ} {i : ι}

theorem desk_query (d : Desk ι σ) (handle : Handle) (params : List Param) (n : ℤ) :
    (desk api commands leftover host rest i d (.query api handle params n)).2 =
      let z := (commandQuery commands n).run (handed params leftover host) d.statics d.host
      ⟨z.mem, z.env, (ranIn z.trace).map (.ran i) ++ d.log⟩ := congrArg Prod.snd (if_pos rfl)

variable [DecidableEq ι]

/-- Calls that are not of the command plugin leave the variables and the record alone. -/
theorem Desk.Sound.elsewhere (h : d.Sound) {e : Call}
    (hrest : (desk api commands leftover host rest i d e).2 = { d with host :=
  (rest d.host e).2 }) : (desk api commands leftover host rest i d e).2.Sound := by
  rw [hrest]
  exact ⟨h.left, h.belongs⟩

/-- A `METHOD_GET` command leaves what it is recorded to have left. -/
theorem Desk.Sound.query (h : d.Sound) {param : Param} {params : List Param} {n : ℤ} (hn : n ≠ 0)
    (hget : NamesGet commands param) (handle : Handle)
    (hfits : Undisturbed api commands leftover host i (.query api handle (param :: params) n) d) :
    (desk api commands leftover host rest i d (.query api handle (param :: params) n)).2.Sound := by
  obtain ⟨pvhandle, hfind, hget⟩ := hget
  obtain ⟨run, hran, hleft⟩ : wp (handed (param :: params) leftover host) _ _ d.statics d.host :=
    commandQuery_get hn hfind hget
  have hle : run.output.length ≤ CMD_BUFFER_SZ := by
    refine hfits rfl run ?_
    rw [hran]
    exact List.mem_singleton_self run
  have hleft := hleft hle
  rw [desk_query]
  dsimp only
  rw [hran]
  refine ⟨?_, belongs_cons.mpr ⟨hle, h.belongs⟩⟩
  rintro j run' ⟨⟩
  exact ⟨hleft.exportsize, hleft.result⟩

/-- A client that is told the size when its own command was run last is told its own. -/
theorem Desk.Sound.getSize (h : d.Sound) (hown : (lastRun d.log).map Prod.fst = some i)
    (handle : Handle) :
    (desk api commands leftover host rest i d (.getSize api handle)).2.Sound := by
  obtain ⟨⟨j, run⟩, hlast, rfl⟩ := Option.map_eq_some_iff.mp hown
  have hdesk : (desk api commands leftover host rest j d (.getSize api handle)).2 =
      { d with log := .size j d.statics.exportsize :: d.log } := congrArg Prod.snd (if_pos rfl)
  rw [hdesk]
  refine ⟨h.left, belongs_cons.mpr ⟨?_, h.belongs⟩⟩
  rw [Entry.Own, ownRun_of_lastRun hlast, (h.left j run hlast).1]
  rfl

/-- A client that reads when its own command was run last is given its own result, if what is at the
offset is what the result starts with: `command_pread` ignores the offset. -/
theorem Desk.Sound.pread (h : d.Sound) (handle : Handle) (count : UInt32) (offset : UInt64)
    (hown : (lastRun d.log).map Prod.fst = some i)
    (hstart : d.statics.result.slice offset.toNat count.toNat =
      d.statics.result.slice 0 count.toNat) :
    (desk api commands leftover host rest i d (.pread api handle count offset)).2.Sound := by
  obtain ⟨⟨j, run⟩, hlast, rfl⟩ := Option.map_eq_some_iff.mp hown
  have hdesk : (desk api commands leftover host rest j d (.pread api handle count offset)).2 =
      { d with log := .read j count offset (d.statics.result.slice 0 count.toNat) :: d.log } :=
    congrArg Prod.snd (if_pos rfl)
  rw [hdesk]
  refine ⟨h.left, belongs_cons.mpr ⟨?_, h.belongs⟩⟩
  rw [Entry.Own, ownRun_of_lastRun hlast, Option.map_some, ← (h.left j run hlast).2, hstart]

/-- The static variables hold what the last command left, after any call of a client that is not
disturbed. -/
theorem Desk.Sound.step (h : d.Sound) (client : ApiClient commands) {e : Call}
    (he : e.Hands (parsedQuery client.uri)) (hown : Undisturbed api commands leftover host i e d) :
    (desk api commands leftover host rest i d e).2.Sound := by
  cases e with
  | query p handle params n =>
    by_cases hp : p = api
    · subst hp
      obtain ⟨param, params', hparams, hget⟩ := client.get
      have hparsed : (n, params) = parsedQuery client.uri := he
      have hn : n ≠ 0 := by
        rw [show n = (parsedQuery client.uri).1 from congrArg Prod.fst hparsed]
        exact parsed_ne_zero _
      obtain rfl : params = param :: params' := (congrArg Prod.snd hparsed).trans hparams
      exact h.query hn hget handle hown
    · exact h.elsewhere (congrArg Prod.snd (if_neg hp))
  | getSize p handle =>
    by_cases hp : p = api
    · subst hp
      exact h.getSize (hown rfl) handle
    · exact h.elsewhere (congrArg Prod.snd (if_neg hp))
  | pread p handle count offset =>
    by_cases hp : p = api
    · subst hp
      exact h.pread handle count offset (hown rfl).1 (hown rfl).2
    · exact h.elsewhere (congrArg Prod.snd (if_neg hp))
  | _ => exact h.elsewhere rfl

theorem readResult_only (i : ContextIdx) (reads : List (UInt32 × UInt64))
    (parsed : ℤ × List Param) : (readResult i reads).Only (Call.Hands parsed) := by
  induction reads with
  | nil => exact .pure _
  | cons r reads ih =>
    apply Prog.Only.read.bind
    intro s
    apply Prog.Only.bind
    · unfold lwnbdPread
      cases (s.reg.get i).p with
      | none => trivial
      | some p => exact .perform trivial
    · exact fun _ => ih

/-- A client has no query called but with what its own URI says. -/
theorem ApiClient.only (client : ApiClient commands) :
    client.run.Only (Call.Hands (parsedQuery client.uri)) := by
  apply (lwnbdGetContext_only client.uri).bind
  rintro (_ | i)
  · exact .pure _
  · exact readResult_only i _ _

/-- Where the clients start, with nothing recorded. -/
def opening (clients : ι → ApiClient commands) (s : Shared) (v : CommandStatics) (x : σ) :
    Conf ι Shared Call Resp (Desk ι σ) Unit :=
  ⟨fun i => (clients i).run, s, ⟨v, x, []⟩⟩

/-- **Command results belong to the client that asked**, in every run in which no other client's
command comes in between. -/
theorem results_belong (api : Plugin) (leftover : ℕ → Param) (host : Env QueryCall QueryResp σ)
    (rest : Env Call Resp σ) (clients : ι → ApiClient commands) (s : Shared)
    (v : CommandStatics) (x : σ) (sched : List ι) (halone : ∀ pre i e, pre ++ [i] <+: sched →
      ((opening clients s v x).run (desk api commands leftover host rest) pre).next? i = some e →
        Undisturbed api commands leftover host i e
          ((opening clients s v x).run (desk api commands leftover host rest) pre).env) :
    Belongs ((opening clients s v x).run (desk api commands leftover host rest) sched).env.log := by
  have hstart : (opening clients s v x).env.Sound := ⟨by rintro i run ⟨⟩, belongs_nil⟩
  have hstep : ∀ i e (d : Desk ι σ), e.Hands (parsedQuery (clients i).uri) →
      Undisturbed api commands leftover host i e d → d.Sound →
      (desk api commands leftover host rest i d e).2.Sound :=
        fun i e d he hown h => h.step (clients i) he hown
  exact (Conf.run_inv Desk.Sound (Undisturbed api commands leftover host) hstep
    (fun i => (clients i).only) hstart sched halone).belongs

end Desk

namespace Sample

/-- The command plugin. -/
def api : Plugin := ⟨1, true, false, true, true, true⟩

/-- The table with its export. -/
def apiTable : Registry :=
  (Registry.empty.mark slot).update slot fun _ => ⟨0, some api, literal "api", [], 0⟩

/-- The commands `lc` and `export`. -/
def twoCommands : List LwnbdCommand := [lc, ⟨literal "export", .get, 1⟩]

/-- A host whose commands store their name. -/
def naming : Env QueryCall QueryResp Unit
  | _, .cmd pvhandle _ _ => (⟨0, pvhandle.name, Int64.ofNat pvhandle.name.length⟩, ())
  | w, e => inert w e

/-- One client looks up `api?lc` and reads two bytes, another looks up `api?export` and reads
six. -/
def twoClients : Bool → ApiClient twoCommands
  | true =>
    ⟨literal "api?lc", [(2, 0)],
    ⟨(literal "lc", none), [], by decide +kernel, lc, by decide +kernel, rfl⟩, by
  simp [CMD_BUFFER_SZ]⟩
  | false => ⟨literal "api?export", [(6, 0)], ⟨(literal "export", none), [], by decide +kernel,
    ⟨literal "export", .get, 1⟩, by decide +kernel, rfl⟩, by simp [CMD_BUFFER_SZ]⟩

/-- Where a schedule of the two leads to. -/
def twoAfter (sched : List Bool) : Conf Bool Shared Call Resp (Desk Bool Unit) Unit :=
  (opening twoClients ⟨Sample.ctx, apiTable⟩ Sample.statics ()).run
    (desk api twoCommands (fun _ => ([], none)) naming quiet) sched

/-- One after the other. -/
def inTurn : List Bool := [true, true, true, true, false, false, false, false]

theorem results_belong_inTurn : Belongs (twoAfter inTurn).env.log := by
  have hall : ∀ n < inTurn.length, ∀ i ∈ inTurn[n]?, ∀ e ∈ (twoAfter (inTurn.take n)).next? i,
      Undisturbed api twoCommands (fun _ => ([], none)) naming i e
      (twoAfter (inTurn.take n)).env := by
    decide +kernel
  have halone : ∀ pre i e, pre ++ [i] <+: inTurn → (twoAfter pre).next? i = some e →
      Undisturbed api twoCommands (fun _ => ([], none)) naming i e (twoAfter pre).env := by
    intro pre i e hpre
    obtain ⟨hlen, hget, htake⟩ := Runs.place_of_prefix hpre
    have h := hall pre.length hlen i hget e
    rwa [htake] at h
  unfold twoAfter at halone ⊢
  exact results_belong api _ naming quiet twoClients _ _ _ inTurn halone

/-- The second command is run before the first client reads. -/
def overtaken : List Bool := [true, true, true, false, false, true]

/-- **The first client is given the result of the second one's command.** -/
theorem result_of_another :
    ¬ ∀ (ι σ : Type) [DecidableEq ι] (commands : List LwnbdCommand) (api : Plugin) (leftover : ℕ →
      Param) (host : Env QueryCall QueryResp σ) (rest : Env Call Resp σ)
      (clients : ι → ApiClient commands) (s : Shared) (v : CommandStatics) (x : σ) (sched : List ι),
      Belongs ((opening clients s v x).run (desk api commands leftover host rest)
      sched).env.log := by
  intro h
  have hlog : (twoAfter overtaken).env.log = [.read true 2 0 (literal "ex"),
      .ran false ⟨0, literal "export", 6⟩, .size true 2, .ran true ⟨0, literal "lc", 2⟩] := by
    decide +kernel
  have hbelongs :=
    h Bool Unit twoCommands api (fun _ => ([], none)) naming quiet twoClients ⟨Sample.ctx, apiTable⟩
    Sample.statics () overtaken
  rw [← twoAfter, hlog] at hbelongs
  have hread := (belongs_cons.mp hbelongs).1
  rw [Entry.Own] at hread
  exact absurd hread (by decide +kernel)

end Sample

end LwNBD
