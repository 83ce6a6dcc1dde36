import Mathlib.Data.List.Induction
import LwNBD.Nbd.Exports
import LwNBD.Plugins.Results

/-!
# The commands that list

Two of the builtin commands of `plugins/command/builtin.c` list what there is, a line for each:
`export` the contexts (`lwnbd_dump_contexts` of `src/contexts.c`), `lc` the commands. Each line is
as long as its name and description make it, and nothing bounds their number but the size of a
table. The buffer has `CMD_BUFFER_SZ` bytes.

## The model

* `DescribedCommand`, `commandAddCommand`, `builtin`, `commandTable` — the table of commands.
* `Printed`, `Printed.sprintf` — what was written to a buffer, and how far.
* `lwnbdDumpContexts`, `exportCommand`, `listCommand` — the commands, which tell all that they
  write.
* `FitsResult` — a command that is run by `command_query_get` writes no more than `result` holds.

## What is proved

* `printed_eq` — lines that are printed one behind the other, and the `NUL`.
* `builtin_fits_iff` — the commands write no more than the buffer holds exactly if the lines, and
  the `NUL`, do not add up to more.
-/

namespace LwNBD

open Resumption

/-! ### The table of commands -/

/-- `CMD_DRIVER_MAX`. -/
def CMD_DRIVER_MAX : ℕ := 100

/-- `struct lwnbd_command`, with its description. -/
structure DescribedCommand extends LwnbdCommand where
  /-- `desc`. -/
  desc : Bytes
  deriving DecidableEq

/-- `command_add_command`, on the `commands_cnt` commands there are. -/
def commandAddCommand (commands : List DescribedCommand) (h : DescribedCommand) :
    ℤ × List DescribedCommand :=
  if commands.length = CMD_DRIVER_MAX then (-1, commands) else (0, commands ++ [h])

/-- `builtin`. -/
def builtin : List DescribedCommand :=
  [⟨⟨literal "echo", .get, 0⟩, literal "Print on the standard output."⟩,
    ⟨⟨literal "export", .get, 1⟩, literal "Set export attribute for shell variables."⟩,
    ⟨⟨literal "lc", .get, 2⟩, literal "List shell commands."⟩]

/-- The commands after `command_load`, and a `command_ctor` for each of those that are added. -/
def commandTable (added : List DescribedCommand) : List DescribedCommand :=
  (builtin ++ added).foldl (fun commands h => (commandAddCommand commands h).2) []

/-! ### Printing -/

/-- What was written to a buffer, from its start on, and the number of characters that were
printed. -/
structure Printed where
  /-- What was written. -/
  bytes : Bytes
  /-- The number of characters. -/
  cnt : ℕ
  deriving DecidableEq

/-- Nothing is printed. -/
def Printed.start : Printed := ⟨[], 0⟩

/-- The characters of `"%-32s: %s\n"`. -/
def listLine (name desc : Bytes) : Bytes :=
  name.rightpad 32 ' '.toUInt8 ++ literal ": " ++ desc ++ literal "\n"

/-- `cnt += sprintf(s + cnt, …)`, where `…` is `line`: its `NUL` is written, too. -/
def Printed.sprintf (x : Printed) (line : Bytes) : Printed :=
  ⟨x.bytes.overwrite x.cnt (line ++ [0]), x.cnt + line.length⟩

/-- `lwnbd_dump_contexts`: what it writes, and what it returns. -/
def lwnbdDumpContexts (reg : Registry) : Bytes × ℕ :=
  let x := (List.finRange MAX_CONTEXTS).foldl (fun (x : Printed) i =>
    if reg.Created i then x.sprintf (listLine (reg.get i).name (reg.get i).description)
      else x) Printed.start
  (x.bytes, x.cnt + 1)

/-- `export`, where `*size` is `size` before. -/
def exportCommand (reg : Registry) (argc : ℤ) (size : Int64) : CmdRun :=
  if argc = 1 then
    let dump := lwnbdDumpContexts reg
    ⟨0, dump.1, .ofNat dump.2⟩
  else ⟨0, [], size⟩

/-- `list_command`. -/
def listCommand (commands : List DescribedCommand) : CmdRun :=
  let x :=
    commands.foldl (fun (x : Printed) command => x.sprintf (listLine command.name command.desc))
    Printed.start
  ⟨0, x.bytes, .ofNat x.cnt⟩

/-! ### What is written -/

theorem length_listLine (name desc : Bytes) :
    (listLine name desc).length = max 32 name.length + desc.length + 3 := by
  have hcolon : (literal ": ").length = 2 := rfl
  have hend : (literal "\n").length = 1 := rfl
  simp only [listLine, List.length_append, List.rightpad, List.length_replicate, hcolon, hend]
  omega

/-- Lines one behind the other, and the `NUL` that ends the last of them. -/
theorem printed_eq (lines : List Bytes) : lines.foldl Printed.sprintf .start =
    ⟨if lines = [] then [] else lines.flatten ++ [0], lines.flatten.length⟩ := by
  induction lines using List.reverseRecOn with
  | nil => rfl
  | append_singleton lines line ih =>
    have hne : lines ++ [line] ≠ [] := by simp
    rw [List.foldl_append, ih, if_neg hne, List.flatten_append, List.length_append]
    show Printed.mk _ _ = _
    rw [List.flatten_singleton]
    congr 1
    -- the `NUL` of the line before is the first character that is overwritten
    by_cases hnil : lines = []
    · rw [if_pos hnil, hnil]
      simp [List.overwrite]
    · rw [if_neg hnil]
      simp [List.overwrite]

/-- The names and descriptions of the contexts that are created. -/
def Registry.listed (reg : Registry) : List (Bytes × Bytes) :=
  ((List.finRange MAX_CONTEXTS).filter fun i => reg.Created i).map fun i =>
    ((reg.get i).name, (reg.get i).description)

/-- The lengths of the lines of such a list, together. -/
def listLength (entries : List (Bytes × Bytes)) : ℕ :=
  (entries.map fun e => max 32 e.1.length + e.2.length + 3).sum

/-- The lines of a list, printed. -/
def printList (entries : List (Bytes × Bytes)) : Printed :=
  (entries.map fun e => listLine e.1 e.2).foldl Printed.sprintf .start

/-- How much is printed: the lines, and the `NUL`. -/
theorem length_printList (entries : List (Bytes × Bytes)) :
    (printList entries).cnt = listLength entries ∧
    ((printList entries).bytes.length ≤ CMD_BUFFER_SZ ↔ listLength entries < CMD_BUFFER_SZ) := by
  have hlength : (entries.map fun e => listLine e.1 e.2).flatten.length = listLength entries := by
    rw [List.length_flatten, List.map_map]
    exact congrArg List.sum (List.map_congr_left fun e _ => length_listLine e.1 e.2)
  rw [printList, printed_eq]
  refine ⟨hlength, ?_⟩
  by_cases hnil : entries = []
  · rw [hnil]
    decide
  · rw [if_neg (by simpa using hnil), List.length_append, hlength]
    exact Nat.lt_iff_add_one_le.symm

theorem lwnbdDumpContexts_eq (reg : Registry) :
    lwnbdDumpContexts reg = ((printList reg.listed).bytes, (printList reg.listed).cnt + 1) := by
  have hfold : printList reg.listed = (List.finRange MAX_CONTEXTS).foldl (fun (x : Printed) i =>
      if reg.Created i then x.sprintf (listLine (reg.get i).name (reg.get i).description)
        else x) Printed.start := by
    rw [printList, Registry.listed, List.map_map, List.foldl_map, List.foldl_filter]
    simp only [Function.comp_apply, decide_eq_true_eq]
  rw [hfold]
  rfl

theorem listCommand_eq (commands : List DescribedCommand) : listCommand commands =
    ⟨0, (printList (commands.map fun command => (command.name, command.desc))).bytes,
      .ofNat (printList (commands.map fun command => (command.name, command.desc))).cnt⟩ := by
  rw [printList, List.map_map, List.foldl_map]
  rfl

/-! ### What fits -/

/-- The commands that are run do what `cmd` says, of the number of their arguments. -/
def commandHost (cmd : ℤ → CmdRun) : Env QueryCall QueryResp Unit
  | w, .cmd _ argc _ => (cmd argc, w)
  | w, .param _ => (([], none), w)
  | w, .memset _ | w, .memcpy _ => ((), w)
  | w, .mcinfoCmd | w, .kelfbind _ => (0, w)

/-- A command that is run by `command_query_get` writes no more than `result` holds, and leaves a
size that is no larger. -/
def FitsResult (cmd : ℤ → CmdRun) (argc : ℤ) : Prop :=
  ∀ (pvhandle : LwnbdCommand) (param : Param) (params : List Param) (leftover : ℕ →
    Param) (s : CommandStatics),
    wp (handed (param :: params) leftover (commandHost cmd)) (commandQueryGet pvhandle argc)
      (fun o v _ h =>
      (∃ r, o = .ret r) ∧ (∀ run ∈ ranIn h, run.output.length ≤ CMD_BUFFER_SZ) ∧
      (commandGetSize v).toInt ≤ CMD_BUFFER_SZ) s ()

theorem fitsResult_iff {cmd : ℤ → CmdRun} {argc : ℤ} :
    FitsResult cmd argc ↔ (cmd argc).output.length ≤ CMD_BUFFER_SZ ∧
    (cmd argc).size.toInt ≤ CMD_BUFFER_SZ := by
  constructor
  · intro h
    have hrun := h ⟨[], .get, 0⟩ ([], none) [] (fun _ => ([], none)) ⟨[], 0, none⟩
    obtain ⟨⟨-, hout, hsize⟩, run, rfl, htrace, hleft, -⟩ := wp_and hrun wp_commandQueryGet
    rw [htrace] at hout
    have hle := hout _ (List.mem_singleton.mpr rfl)
    rw [commandGetSize, (hleft hle).exportsize] at hsize
    exact ⟨hle, hsize⟩
  · intro h pvhandle param params leftover s
    refine wp_mono _ ?_ wp_commandQueryGet
    rintro o v - t ⟨run, rfl, rfl, hleft, -⟩
    have hleft := hleft h.1
    refine ⟨⟨_, hleft.out⟩, ?_, ?_⟩
    · intro run hmem
      rw [List.mem_singleton.mp hmem]
      exact h.1
    · rw [commandGetSize, hleft.exportsize]
      exact h.2

/-- A size that is no larger than the buffer is told as it is. -/
theorem toInt_size {n : ℕ} (h : n ≤ CMD_BUFFER_SZ) : (Int64.ofNat n).toInt ≤ CMD_BUFFER_SZ := by
  have hlt : n < 2 ^ 63 := Nat.lt_of_le_of_lt h (by decide)
  rw [Int64.toInt_ofNat_of_lt hlt]
  exact Int.ofNat_le.mpr h

/-- **What the builtin commands write**, whatever there is to list: `export` fits exactly if the
lines of the created contexts do, with a `NUL`, or if it has an argument; `lc` if the lines of the
commands do. -/
theorem builtin_fits_iff (reg : Registry) (commands : List DescribedCommand) (argc : ℤ) :
    (FitsResult (fun argc => exportCommand reg argc 1) argc ↔
      (argc = 1 → listLength reg.listed < CMD_BUFFER_SZ)) ∧
    (FitsResult (fun _ => listCommand commands) argc ↔
      listLength (commands.map fun command => (command.name, command.desc)) < CMD_BUFFER_SZ) := by
  constructor
  · obtain ⟨hcnt, hbytes⟩ := length_printList reg.listed
    rw [fitsResult_iff, exportCommand, lwnbdDumpContexts_eq]
    by_cases hargc : argc = 1
    · rw [if_pos hargc]
      show (printList reg.listed).bytes.length ≤ CMD_BUFFER_SZ ∧ _ ↔ _
      rw [hbytes, hcnt]
      exact ⟨fun h _ => h.1, fun h => ⟨h hargc, toInt_size (h hargc)⟩⟩
    · rw [if_neg hargc]
      exact ⟨fun _ h => absurd h hargc, fun _ => ⟨Nat.zero_le _, by decide⟩⟩
  · obtain ⟨hcnt, hbytes⟩ :=
      length_printList (commands.map fun command => (command.name, command.desc))
    rw [fitsResult_iff, listCommand_eq]
    dsimp only
    rw [hbytes, hcnt]
    exact ⟨fun h => h.1, fun h => ⟨h, toInt_size (Nat.le_of_lt h)⟩⟩

namespace Sample

theorem isCStr_longest : IsCStr 32 (List.replicate 31 110) ∧ IsCStr 64 (List.replicate 63 100) := by
  decide

/-- A constructor that gives its context a name of 31 characters and a description of 63. -/
def wordy : CtorRun :=
  ⟨0, fun c => { c with name := List.replicate 31 110, description := List.replicate 63 100 },
    fun _ _ => isCStr_longest⟩

/-- The library after one more such export. -/
def oneMore (lib : Library) : Library :=
  match lwnbdPluginNew lib 0 wordy with
  | .ret (_, lib') => lib'
  | .halt _ => lib

/-- The library with as many exports as the table holds. -/
def crowded : Library := oneMore^[MAX_CONTEXTS] registered

theorem crowded_reachable : ∃ hs, Reachable (fun _ _ => True) crowded hs := by
  have hall : ∀ n, ∃ hs, Reachable (fun _ _ => True) (oneMore^[n] registered) hs := by
    intro n
    induction n with
    | zero => exact ⟨[], registered_reachable⟩
    | succ n ih =>
      obtain ⟨hs, h⟩ := ih
      rw [Function.iterate_succ_apply', oneMore]
      cases hnew : lwnbdPluginNew (oneMore^[n] registered) 0 wordy with
      | ret x =>
        have hleads : (Change.pluginNew 0 wordy).Leads (oneMore^[n] registered) x.2 := ⟨x.1, hnew⟩
        exact ⟨_, .step h trivial hleads⟩
      | halt w => exact ⟨hs, h⟩
  exact hall MAX_CONTEXTS

/-- A command with a description of a page. -/
def verbose : DescribedCommand := ⟨⟨literal "page", .get, 3⟩, List.replicate 4096 100⟩

end Sample

/-- **Fifty exports are too much, and so is a command with a long description.** -/
theorem builtin_overruns :
    (¬ ∀ lib hs, Reachable (fun _ _ => True) lib hs →
      ∀ argc, FitsResult (fun argc => exportCommand lib.reg argc 1) argc) ∧
    ¬ ∀ added argc, FitsResult (fun _ => listCommand (commandTable added)) argc := by
  constructor
  · intro h
    obtain ⟨hs, hreach⟩ := Sample.crowded_reachable
    have hfits := (fitsResult_iff.mp (h _ hs hreach 1)).1
    rw [exportCommand, if_pos rfl, lwnbdDumpContexts_eq] at hfits
    dsimp only at hfits
    have hlength := (length_printList Sample.crowded.reg.listed).2.mp hfits
    have hlong : listLength Sample.crowded.reg.listed = 4900 := by decide +kernel
    rw [hlong] at hlength
    exact absurd hlength (by decide)
  · intro h
    have hfits := (fitsResult_iff.mp (h [Sample.verbose] 1)).1
    rw [listCommand_eq] at hfits
    have hlength := (length_printList _).2.mp hfits
    have hlong : CMD_BUFFER_SZ ≤ listLength ((commandTable [Sample.verbose]).map fun command =>
      (command.name, command.desc)) := by decide +kernel
    exact absurd hlength (Nat.not_lt.mpr hlong)

end LwNBD
