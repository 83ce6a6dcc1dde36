import LwNBD.Core.Uri
import LwNBD.Resumption.Rules

/-!
# Query callbacks

`memory_query` of `plugins/memory/memory.c`, `command_query` of `plugins/command/command.c`, with
what else that plugin does for a `METHOD_GET` command, and `mcman_query` of
`plugins/mcman/mcman_q.c`. They are handed an array on the caller's stack, of which the query parser
has filled the start, and a count.

## The model

* `QueryCall`, `QueryResp` — what a callback does besides computing: it reads an entry of the array,
  writes the memory it exports, or has a command run. An entry that was not filled holds anything.
* `CommandStatics` — the static variables of the command plugin, which its callbacks share.
* `handed` — the array.
* `memoryQuery`, `commandQuery`, `mcmanQuery` — the callbacks.

Log lines are left out, and with one of them the `strlen(result)` of `command_pread`.
-/

namespace LwNBD

open Resumption

/-- A string literal. -/
def literal (s : String) : Bytes := s.toList.map Char.toUInt8

/-! ### The command plugin's data -/

/-- `CMD_BUFFER_SZ`. -/
def CMD_BUFFER_SZ : ℕ := 4096

/-- `method_type`. -/
inductive MethodType where
  /-- `METHOD_GET`. -/
  | get
  /-- `METHOD_POST`. -/
  | post
  deriving DecidableEq, Repr

/-- `struct lwnbd_command`, but for its description. -/
structure LwnbdCommand where
  /-- The name. -/
  name : Bytes
  /-- When it is run. -/
  type : MethodType
  /-- Which function it is. -/
  cmd : ℕ
  deriving DecidableEq

/-- `struct post_h`, but for the address of the array on the caller's stack. -/
structure PostH where
  /-- `pvhandle`. -/
  pvhandle : LwnbdCommand
  /-- `nb_params`. -/
  nbParams : ℤ
  deriving DecidableEq

/-- The static variables of `command.c` that its callbacks write. -/
structure CommandStatics where
  /-- `result`. -/
  result : Bytes
  /-- `exportsize`. -/
  exportsize : Int64
  /-- `pp`; none before the first `METHOD_POST`. -/
  pp : Option PostH
  deriving DecidableEq

/-- The answer of a command: its result, what it stored at the start of `result`, and what it left
in `*size`. -/
structure CmdRun where
  /-- The result. -/
  ret : ℤ
  /-- What it stored. -/
  output : Bytes
  /-- `*size`. -/
  size : Int64
  deriving DecidableEq

/-! ### Calls -/

/-- What a query callback does. -/
inductive QueryCall where
  /-- Read `params[i]`. -/
  | param (i : ℕ)
  /-- `memset((char *)h->base, c, h->size)`. -/
  | memset (c : UInt8)
  /-- `memcpy((char *)h->base, val, strlen(val))`. -/
  | memcpy (val : Bytes)
  /-- `pvhandle->cmd(argc, argv, result, &exportsize)`, where `argv` starts with the entry
  `argv`. -/
  | cmd (pvhandle : LwnbdCommand) (argc : ℤ) (argv : Param)
  /-- `mcinfo_cmd(handle)`. -/
  | mcinfoCmd
  /-- `kelfbind(h->device, path)`. -/
  | kelfbind (path : Bytes)
  deriving DecidableEq

/-- The answers. -/
abbrev QueryResp : QueryCall → Type
  | .param _ => Param
  | .cmd .. => CmdRun
  | .memset _ | .memcpy _ => Unit
  | .mcinfoCmd | .kelfbind _ => ℤ

/-- A callback, or a part of one. -/
abbrev Callback (α : Type) := Prog CommandStatics QueryCall QueryResp α

/-- `params[i]`. -/
def paramAt (i : ℕ) : Callback Param := Prog.perform (QueryCall.param i)

/-- What a callback finds in the caller's array: the entries that are filled, then what was left on
the stack. A host does the rest. -/
def handed {σ : Type} (params : List Param) (leftover : ℕ → Param)
    (host : Env QueryCall QueryResp σ) : Env QueryCall QueryResp σ
  | w, .param i => (params.getD i (leftover i), w)
  | w, e => host w e

/-! ### The callbacks -/

/-- `while (nb_params-- > 0)`, from the last entry to the first. -/
def whileParams (body : ℕ → Callback Unit) : ℕ → Callback Unit
  | 0 => pure ()
  | i + 1 => do
    body i
    whileParams body i

/-- One filter of `memory_query`. -/
def memoryFilter (i : ℕ) : Callback Unit := do
  let param ← paramAt i
  if param.1 = literal "bzero" then Prog.perform (QueryCall.memset 0)
  else if param.1 = literal "memset" then
    match param.2 with
    | none => pure ()
    | some val => Prog.perform (QueryCall.memset (val.headD 0))
  else if param.1 = literal "memcpy" then
    match param.2 with
    | none => pure ()
    | some val => do
      Prog.perform (QueryCall.memset 0)
      Prog.perform (QueryCall.memcpy val)
  else pure ()

/-- `memory_query`. -/
def memoryQuery (nbParams : ℤ) : Callback ℤ := do
  whileParams memoryFilter nbParams.toNat
  pure 0

/-- One command of `mcman_query`. -/
def mcmanCommand (i : ℕ) : Callback Unit := do
  let param ← paramAt i
  if param.1 = literal "info" then
    let _ ← Prog.perform QueryCall.mcinfoCmd
    pure ()
  else if param.1 = literal "kelfbind" then
    match param.2 with
    | none => pure ()
    | some val => do
      let _ ← Prog.perform (QueryCall.kelfbind val)
      pure ()
  else pure ()

/-- `mcman_query`. -/
def mcmanQuery (nbParams : ℤ) : Callback ℤ := do
  whileParams mcmanCommand nbParams.toNat
  pure 0

/-- `command_query_get`. There is no meaning to a command that stores more than `result` holds. -/
def commandQueryGet (pvhandle : LwnbdCommand) (nbParams : ℤ) : Callback ℤ := do
  Prog.modify fun s => { s with exportsize := 1, result := List.replicate CMD_BUFFER_SZ 0 }
  let argv ← paramAt 0
  let run ← Prog.perform (QueryCall.cmd pvhandle nbParams argv)
  if CMD_BUFFER_SZ < run.output.length then .halt .undefined
  else do
    Prog.modify fun s => { s with result := store s.result run.output, exportsize := run.size }
    pure run.ret

/-- `command_query_post`. -/
def commandQueryPost (pvhandle : LwnbdCommand) (nbParams : ℤ) : Callback ℤ := do
  Prog.modify fun s =>
    { s with exportsize := Int64.ofNat CMD_BUFFER_SZ, pp := some ⟨pvhandle, nbParams⟩ }
  pure 0

/-- `while (cnt < commands_cnt)` of `command_query`: the first command of the name in the first
entry. -/
def findCommand : List LwnbdCommand → Callback (Option LwnbdCommand)
  | [] => pure none
  | command :: commands => do
    let param ← paramAt 0
    if param.1 = command.name then pure (some command) else findCommand commands

/-- `command_query`, with these commands registered. -/
def commandQuery (commands : List LwnbdCommand) (nbParams : ℤ) : Callback ℤ :=
  if nbParams = 0 then pure (-1)
  else do
    match ← findCommand commands with
    | none => pure (-1)
    | some pvhandle => do
      let param ← paramAt 0
      let nbParams := if param.2 = none then 1 else 2
      match pvhandle.type with
      | .get => commandQueryGet pvhandle nbParams
      | .post => commandQueryPost pvhandle nbParams

/-! ### The other callbacks of the command plugin -/

/-- `command_get_size`. -/
def commandGetSize (s : CommandStatics) : Int64 := s.exportsize

/-- `command_pread`, which ignores its offset: what it stores in the buffer, `count` being at most
`CMD_BUFFER_SZ`. -/
def commandPread (s : CommandStatics) (count : UInt32) (_offset : UInt64) : Bytes :=
  s.result.take count.toNat

end LwNBD
