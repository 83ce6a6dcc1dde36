import Mathlib.Data.List.TakeWhile
import LwNBD.Core.Dispatch
import LwNBD.Nbd.Sample
import LwNBD.Plugins.Query

/-!
# The `echo` command

`echo` of `plugins/command/builtin.c` is to print its argument, with the content of an export for
each `$name`. It copies what precedes a `$`, but for the last character, to the start of the result,
whatever is there; it has `strtok` skip to the next line that is not empty, takes what it skipped,
but for the last character, for the name, and goes on with that line. So a name that follows its `$`
has a negative length.

## The model

* `strchr`, `strtok`, `strncpy` — the functions of the C library, on strings without their `NUL`.
* `EchoVars`, `echoRound`, `echo` — the command, a program of the server, for it looks up exports
  and reads them. A copy of a negative length, or one that does not fit, is `.undefined`, and so is
  a name that does not end within `req`. What was not initialised, or is behind the end of a string,
  is anything. That a lookup may run another command, which has the same `result`, is left out.
* `expand`, `EchoExpands` — what is expected of it.

## What is proved

* `wp_echoLoop` — without exports, the length that is told is too small if there is a `$`.
* `echo_expands_iff` — `echo` does as expected exactly if there is no `$`, and the argument fits.
-/

namespace LwNBD

open Resumption

/-! ### The C library -/

/-- A number as an `int`. -/
def toInt32 (n : ℤ) : ℤ := n.bmod (2 ^ 32)

/-- `strchr`: what precedes the first `c`, and what follows it. -/
def strchr (s : Bytes) (c : UInt8) : Option (Bytes × Bytes) :=
  if c ∈ s then some (s.takeWhile (· ≠ c), (s.dropWhile (· ≠ c)).tail) else none

/-- `strtok`: how many delimiters there are in front of the token, and the token. -/
def strtok (s delimiters : Bytes) : Option (ℕ × Bytes) :=
  let skipped := s.takeWhile (· ∈ delimiters)
  let rest := s.dropWhile (· ∈ delimiters)
  if rest = [] then none else some (skipped.length, rest.takeWhile (· ∉ delimiters))

/-- What `strncpy` stores: the start of the string, and zeros up to `n` characters. -/
def strncpy (src : Bytes) (n : ℕ) : Bytes := (src.take n).rightpad n 0

/-! ### The command -/

/-- The variables of the loop. -/
structure EchoVars where
  /-- `temp`. -/
  temp : Bytes
  /-- What `result` points to. -/
  result : Bytes
  /-- `*size`. -/
  size : ℤ

/-- The content of the export in slot `i`, stored behind what there is. -/
def echoRead (x : EchoVars) (i : ContextIdx) : Server (Ctl EchoVars (Bytes × ℤ)) := do
  let ctx := (← Prog.read).reg.get i
  let r ← lwnbdPread ctx (asUInt32 ctx.exportsize.toInt) 0
  if 0 ≤ x.size ∧ x.size + r.data.length ≤ CMD_BUFFER_SZ then
    pure (.next { x with
      result := x.result.overwrite x.size.toNat r.data
      size := x.size + ctx.exportsize.toInt })
  else .halt .undefined

/-- What is done when a `$` was found, and `pargs` follows it. -/
def echoName (x : EchoVars) (pargs : Bytes) : Server (Ctl EchoVars (Bytes × ℤ)) :=
  match strtok pargs (literal "\n") with
  | none => .halt .undefined
  | some (skipped, temp) =>
    let cnt := toInt32 (skipped - 1)
    if 0 ≤ cnt ∧ cnt ≤ 30 then do
      let req ← Prog.perform (Call.uninit 30)
      let req := store req.val (strncpy pargs cnt.toNat)
      if 0 ∈ req then do
        match ← lwnbdGetContext (cstr req) with
        | none => pure (.next { x with temp := temp })
        | some i => echoRead { x with temp := temp } i
      else .halt .undefined
    else .halt .undefined

/-- One round of the loop. -/
def echoRound (x : EchoVars) : Server (Ctl EchoVars (Bytes × ℤ)) :=
  match strchr x.temp '$'.toUInt8 with
  | some (before, pargs) =>
    let cnt := toInt32 (before.length - 1)
    if 0 ≤ cnt ∧ cnt ≤ CMD_BUFFER_SZ then
      echoName { x with result := store x.result (before.take cnt.toNat), size := x.size + cnt }
        pargs
    else .halt .undefined
  | none =>
    let size := x.size + x.temp.length
    if 0 ≤ size ∧ size ≤ CMD_BUFFER_SZ then do
      let behind ← Prog.perform (Call.uninit (size.toNat - x.temp.length - 1))
      pure (.done (store x.result ((x.temp ++ 0 :: behind.val).take size.toNat), size))
    else .halt .undefined

/-- `echo`, where `*size` is `size` before: what it returns, and leaves in `result` and `*size`. -/
def echo (argc : ℤ) (argv : ℕ → Option Bytes) (result : Bytes) (size : Int64) :
    Server (ℤ × Bytes × Int64) :=
  if argc = 1 then pure (0, result, size)
  else match argv 1 with
    | none => .halt .undefined
    | some arg => do
      let r ← Prog.loop (arg.length + 1) echoRound ⟨arg, result, 0⟩
      pure (0, r.1, .ofInt r.2)

/-! ### What is expected -/

/-- A string with the content of an export for each `$name` that resolves to one, where the name
ends with the line. -/
def expand (resolve : Bytes → Option Bytes) : Bytes → Bytes
  | [] => []
  | b :: s =>
    if b = '$'.toUInt8 then
      match resolve (s.takeWhile (· ≠ '\n'.toUInt8)) with
      | some content => content ++ expand resolve (s.dropWhile (· ≠ '\n'.toUInt8))
      | none => b :: expand resolve s
    else b :: expand resolve s
termination_by s => s.length
decreasing_by
  · have := (List.dropWhile_suffix (· ≠ '\n'.toUInt8) (l := s)).length_le
    simp only [List.length_cons]
    omega
  · simp
  · simp

/-- The content of the export that a name resolves to. -/
def readExport (name : Bytes) : Server (Option Bytes) := do
  match ← lwnbdGetContext name with
  | none => pure none
  | some i =>
    let ctx := (← Prog.read).reg.get i
    let r ← lwnbdPread ctx (asUInt32 ctx.exportsize.toInt) 0
    pure (some r.data)

/-- The contents of the exports there are. -/
def contents {σ : Type} (env : Env Call Resp σ) (s : Shared) (w : σ) (name : Bytes) :
    Option Bytes :=
  match ((readExport name).run env s w).out with
  | .ret content => content
  | .halt _ => none

/-- `echo` expands its argument: it returns, with the text in `result` and its length in `*size`,
whatever exports there are. -/
def EchoExpands (arg : Bytes) : Prop :=
  ∀ (σ : Type) (env : Env Call Resp σ) (s : Shared) (w : σ) (argv : ℕ →
    Option Bytes) (result : Bytes) (size : Int64), argv 1 = some arg →
    result.length = CMD_BUFFER_SZ → wp env (echo 2 argv result size) (fun o _ _ _ =>
      ∃ result' size', o = .ret (0, result', size') ∧
        result'.take (expand (contents env s w) arg).length = expand (contents env s w) arg ∧
        size'.toInt = (expand (contents env s w) arg).length) s w

/-! ### The library functions -/

theorem toInt32_le {n : ℤ} (h : -1 ≤ n) : toInt32 n ≤ n := by
  rw [toInt32, Int.bmod_def]
  split_ifs <;> omega

theorem strchr_eq_none {s : Bytes} {c : UInt8} (h : c ∉ s) : strchr s c = none := if_neg h

/-- What precedes the character, and what follows it. -/
theorem strchr_eq_some {s before after : Bytes} {c : UInt8}
    (h : strchr s c = some (before, after)) :
    c ∈ s ∧ s.length = before.length + 1 + after.length := by
  unfold strchr at h
  split_ifs at h with hmem
  cases h
  have hne : s.dropWhile (· ≠ c) ≠ [] := by
    intro hnil
    have hall := List.dropWhile_eq_nil_iff.mp hnil c hmem
    simp at hall
  have hlen := congrArg List.length (List.takeWhile_append_dropWhile (p := (· ≠ c)) (l := s))
  have hpos := List.length_pos_of_ne_nil hne
  rw [List.length_append] at hlen
  rw [List.length_tail]
  exact ⟨hmem, by omega⟩

theorem strtok_length {s delimiters token : Bytes} {n : ℕ}
    (h : strtok s delimiters = some (n, token)) : token.length ≤ s.length := by
  unfold strtok at h
  dsimp only at h
  split_ifs at h
  cases h
  exact Nat.le_trans (List.takeWhile_prefix _).length_le (List.dropWhile_suffix _).length_le

/-! ### What is expected of a string without a `$` -/

theorem expand_none (s : Bytes) : expand (fun _ => none) s = s := by
  induction s with
  | nil => rw [expand]
  | cons b s ih =>
    rw [expand, ih]
    exact ite_self _

theorem expand_of_notMem (resolve : Bytes → Option Bytes) {s : Bytes} (h : '$'.toUInt8 ∉ s) :
    expand resolve s = s := by
  induction s with
  | nil => rw [expand]
  | cons b s ih =>
    rw [List.mem_cons, not_or] at h
    rw [expand, if_neg (Ne.symm h.1), ih h.2]

/-! ### Without exports -/

section Empty

variable {σ : Type} {env : Env Call Resp σ} {s : Shared} {w : σ}

theorem wp_lwnbdGetContext_none (h : ∀ name, s.reg.getContextString name = none) (uri : Bytes) :
    wp env (lwnbdGetContext uri) (fun o s' _ _ => o = .ret none ∧ s' = s) s w := by
  rw [lwnbdGetContext_eq, note, wp_bind, wp_perform, Post.seq_ret, wp, run_findContext_none _ (h _)]
  exact ⟨rfl, rfl⟩

theorem contents_none (h : ∀ name, s.reg.getContextString name = none) :
    contents env s w = fun _ => none := by
  funext name
  have hread : wp env (readExport name) (fun o _ _ _ => o = .ret none) s w := by
    rw [readExport, wp_bind]
    refine wp_mono env ?_ (wp_lwnbdGetContext_none h name)
    rintro o s' w' t ⟨rfl, rfl⟩
    rfl
  rw [contents, show ((readExport name).run env s w).out = .ret none from hread]

/-- A round that goes round again has a shorter string, and string and size are less than before
together; one that leaves the loop has no `$`. -/
def RoundEnds (s : Shared) (x : EchoVars) : Post Shared Call Resp σ (Ctl EchoVars (Bytes × ℤ)) :=
  fun o s' _ _ =>
  match o with
  | .ret (.next y) =>
    s' = s ∧ y.temp.length < x.temp.length ∧ y.size + y.temp.length < x.size + x.temp.length
  | .ret (.done r) =>
    '$'.toUInt8 ∉ x.temp ∧ r.2 = x.size + x.temp.length ∧ 0 ≤ r.2 ∧ r.2 ≤ CMD_BUFFER_SZ
  | .halt e => e ≠ .fuel

/-- What follows a `$` is looked up in vain, and a token of it is left. -/
theorem wp_echoName (h : ∀ name, s.reg.getContextString name = none)
    {x y : EchoVars} {pargs : Bytes} (hshorter : pargs.length < x.temp.length)
    (hless : y.size + pargs.length < x.size + x.temp.length) :
    wp env (echoName y pargs) (RoundEnds s x) s w := by
  have hundefined : wp env (.halt .undefined) (RoundEnds s x) s w := by
    show Halt.undefined ≠ Halt.fuel
    decide
  unfold echoName
  cases htoken : strtok pargs (literal "\n") with
  | none => exact hundefined
  | some found =>
    obtain ⟨skipped, token⟩ := found
    have hle := strtok_length htoken
    dsimp only
    split_ifs
    · rw [wp_bind, wp_perform, Post.seq_ret]
      split_ifs
      · rw [wp_bind]
        refine wp_mono env ?_ (wp_lwnbdGetContext_none h _)
        rintro o s' w' t ⟨rfl, rfl⟩
        exact ⟨rfl, by dsimp only; omega, by dsimp only; omega⟩
      · exact hundefined
    · exact hundefined

/-- One round without exports: the `$`, and the character before it, are lost. -/
theorem wp_echoRound (h : ∀ name, s.reg.getContextString name = none) (x : EchoVars) :
    wp env (echoRound x) (RoundEnds s x) s w := by
  have hundefined : wp env (.halt .undefined) (RoundEnds s x) s w := by
    show Halt.undefined ≠ Halt.fuel
    decide
  unfold echoRound
  cases hfound : strchr x.temp '$'.toUInt8 with
  | none =>
    have hnone : '$'.toUInt8 ∉ x.temp := by
      intro hmem
      rw [strchr, if_pos hmem] at hfound
      cases hfound
    dsimp only
    split_ifs with hfits
    · rw [wp_bind, wp_perform, Post.seq_ret, wp_pure]
      exact ⟨hnone, rfl, hfits⟩
    · exact hundefined
  | some found =>
    obtain ⟨before, pargs⟩ := found
    obtain ⟨-, hlen⟩ := strchr_eq_some hfound
    have hcnt : toInt32 (before.length - 1) ≤ before.length - 1 := toInt32_le (by omega)
    dsimp only
    split_ifs
    · exact wp_echoName h (by omega) (by dsimp only; omega)
    · exact hundefined

/-- String and size are no more than the argument together, and less when no `$` is left. -/
def EchoVars.Lost (arg : Bytes) (x : EchoVars) : Prop :=
  x.size + x.temp.length ≤ arg.length ∧ ('$'.toUInt8 ∉ x.temp → x.size + x.temp.length < arg.length)

/-- The loop ends, and if it is left the size is less than the length of the argument. -/
def TooSmall (arg : Bytes) : Post Shared Call Resp σ (Bytes × ℤ) := fun o _ _ _ =>
  o ≠ .halt .fuel ∧ ∀ r, o = .ret r → r.2 < arg.length ∧ 0 ≤ r.2 ∧ r.2 ≤ CMD_BUFFER_SZ

/-- The loop without exports ends, and if there is a `$` the size that it tells is too small. -/
theorem wp_echoLoop (h : ∀ name, s.reg.getContextString name = none) {arg result : Bytes}
    (hmem : '$'.toUInt8 ∈ arg) :
    wp env (Prog.loop (arg.length + 1) echoRound ⟨arg, result, 0⟩) (TooSmall arg) s w := by
  have hbody : ∀ (x : EchoVars) (s' : Shared) (w' : σ) (t : List Ev), s' = s ∧ x.Lost arg →
      wp env (echoRound x) ((TooSmall arg).round (fun y s'' _ _ => (s'' = s ∧ y.Lost arg) ∧
        y.temp.length < x.temp.length) t) s' w' := by
    rintro x s' w' t ⟨rfl, hle, hno⟩
    refine wp_mono env ?_ (wp_echoRound h x)
    rintro ((y | r) | e) s'' w'' t' hend
    · obtain ⟨hsame, hshorter, hless⟩ := hend
      exact ⟨⟨hsame, by omega, fun _ => by omega⟩, hshorter⟩
    · obtain ⟨hnone, hsize, hfits⟩ := hend
      have hless := hno hnone
      refine ⟨by simp, ?_⟩
      rintro r' ⟨⟩
      exact ⟨by omega, hfits⟩
    · exact ⟨fun he => hend (by cases he; rfl), by simp⟩
  have hstart : (⟨arg, result, 0⟩ : EchoVars).Lost arg := ⟨by simp, fun hno => absurd hmem hno⟩
  exact wp_loop_total env (fun (x : EchoVars) s' _ _ => s' = s ∧ x.Lost arg)
    (fun x _ _ => x.temp.length) hbody (arg.length + 1) _ s w [] (Nat.lt_succ_self _) ⟨rfl, hstart⟩

end Empty

/-! ### Every argument -/

section Echo

variable {σ : Type} {env : Env Call Resp σ} {s : Shared} {w : σ} {arg result : Bytes}
  {argv : ℕ → Option Bytes} {size : Int64}

theorem wp_echo {Q : Post Shared Call Resp σ (ℤ × Bytes × Int64)} (hargv : argv 1 = some arg) :
    wp env (echo 2 argv result size) Q s w ↔
      wp env (Prog.loop (arg.length + 1) echoRound ⟨arg, result, 0⟩)
        (Q.seq fun r h s' w' => Q (.ret (0, r.1, .ofInt r.2)) s' w' h) s w := by
  rw [echo, if_neg (by decide), hargv]
  dsimp only
  rw [wp_bind]
  simp only [wp_pure, Post.after_apply, List.append_nil]

theorem wp_echoLoop_plain (hno : '$'.toUInt8 ∉ arg) :
    wp env (Prog.loop (arg.length + 1) echoRound ⟨arg, result, 0⟩) (fun o _ _ _ =>
      o = if arg.length ≤ CMD_BUFFER_SZ then .ret (store result arg, (arg.length : ℤ))
      else .halt .undefined) s w := by
  rw [wp_loop_succ, echoRound, strchr_eq_none hno]
  dsimp only
  rw [Int.zero_add, Int.toNat_natCast]
  by_cases hfits : arg.length ≤ CMD_BUFFER_SZ
  · rw [if_pos ⟨Int.natCast_nonneg _, Int.ofNat_le.mpr hfits⟩, if_pos hfits, wp_bind, wp_perform,
      Post.seq_ret, wp_pure, List.take_left]
    rfl
  · rw [if_neg (fun h => hfits (Int.ofNat_le.mp h.2)), if_neg hfits]
    rfl

theorem toInt_ofInt {n : ℤ} (h : 0 ≤ n) (h' : n ≤ CMD_BUFFER_SZ) : (Int64.ofInt n).toInt = n := by
  have hle : (CMD_BUFFER_SZ : ℤ) < 2 ^ 63 := by decide
  exact Int64.toInt_ofInt_of_le (by omega) (by omega)

end Echo

theorem getContextString_empty (name : Bytes) : Registry.empty.getContextString name = none := by
  have hcount : Registry.empty.contextsCount = 0 := by decide
  rw [Registry.getContextString, List.find?_eq_none]
  intro i _
  rw [hcount]
  simp

/-- When there are no exports, the loop is expected to leave the argument and its length. -/
theorem EchoExpands.loop (h : EchoExpands arg) : wp quiet
    (Prog.loop (arg.length + 1) echoRound ⟨arg, List.replicate CMD_BUFFER_SZ 0, 0⟩) (fun o _ _ _ =>
      ∃ r, o = .ret r ∧ (Int64.ofInt r.2).toInt = arg.length) Sample.mem () := by
  have hecho :=
    h Unit quiet Sample.mem () (fun _ => some arg) (List.replicate CMD_BUFFER_SZ 0) 0 rfl
    List.length_replicate
  rw [contents_none getContextString_empty, expand_none, wp_echo rfl] at hecho
  refine wp_mono quiet ?_ hecho
  rintro (r | e) s w t ⟨result, size, hret, -, hsize⟩
  · cases hret
    exact ⟨r, rfl, hsize⟩
  · cases hret

/-- **`echo` does as expected**, whatever exports there are, exactly if its argument has no `$`, and
fits the buffer. -/
theorem echo_expands_iff (arg : Bytes) :
    EchoExpands arg ↔ '$'.toUInt8 ∉ arg ∧ arg.length ≤ CMD_BUFFER_SZ := by
  constructor
  · intro h
    have hno : '$'.toUInt8 ∉ arg := by
      intro hmem
      obtain ⟨⟨r, hret, hsize⟩, -, hless⟩ := wp_and h.loop (wp_echoLoop getContextString_empty hmem)
      obtain ⟨hlt, hnonneg, hle⟩ := hless r hret
      rw [toInt_ofInt hnonneg hle] at hsize
      omega
    refine ⟨hno, ?_⟩
    by_contra hlong
    obtain ⟨⟨r, hret, -⟩, hplain⟩ := wp_and h.loop (wp_echoLoop_plain hno)
    rw [if_neg hlong, hret] at hplain
    cases hplain
  · rintro ⟨hno, hfits⟩ σ env s w argv result size hargv hresult
    rw [expand_of_notMem _ hno, wp_echo hargv]
    refine wp_mono env ?_ (wp_echoLoop_plain hno)
    rintro o s' w' t rfl
    rw [if_pos hfits, Post.seq_ret]
    exact ⟨_, _, rfl, take_store (by omega),
      toInt_ofInt (Int.natCast_nonneg _) (Int.ofNat_le.mpr hfits)⟩

namespace Sample

/-- The argument of the session that `local-shell.c` shows. -/
def dollarTest : Bytes := literal "$test"

/-- A `$` with a letter before it, and an empty line after it. -/
def brokenLine : Bytes := literal "ab$\ncd"

end Sample

/-- **`echo=$test` copies a negative length**, and of six characters with a `$` at the end of a line
three are told to be left. -/
theorem echo_not_expands :
    (¬ ∀ arg, EchoExpands arg) ∧
    ((echo 2 (fun _ => some Sample.dollarTest) (List.replicate CMD_BUFFER_SZ 0) 0).run quiet
      Sample.mem ()).out = .halt .undefined ∧
    ∃ result, ((echo 2 (fun _ => some Sample.brokenLine) (List.replicate CMD_BUFFER_SZ 0)
      0).run quiet Sample.mem ()).out = .ret (0, result, 3) := by
  refine ⟨fun h => ?_, by decide +kernel, ⟨_, rfl⟩⟩
  have hrun : ((Prog.loop (Sample.dollarTest.length + 1) echoRound
      ⟨Sample.dollarTest, List.replicate CMD_BUFFER_SZ 0, 0⟩).run quiet Sample.mem ()).out =
      .halt .undefined := by
    decide +kernel
  obtain ⟨r, hret, -⟩ := (h Sample.dollarTest).loop
  rw [hrun] at hret
  cases hret

end LwNBD
