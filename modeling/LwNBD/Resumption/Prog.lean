import Mathlib.Data.Nat.Notation
import Mathlib.Logic.Relation

/-!
# Resumptions

A program that shares memory with other programs and calls its environment is a
*resumption*: a tree whose nodes read the shared memory, write it, or make a call
and go on with the answer. Nothing is said of what the environment answers, so one
tree can be run alone against any environment (`Prog.run`), and several trees can be
run against one memory and one environment in any order (`Resumption.Interleave`).

## The model

* `Prog S E R α` — a program over memory `S` and calls `E`, where a call `e` is
  answered by an `R e`, returning an `α`. Two leaves return nothing: `halt .fuel`
  is a loop that was cut short by its fuel, `halt .undefined` a step the language
  gives no meaning to.
* `Env σ` — an environment with state `σ`: what it answers to a call.
* `Prog.run` — the run of a program against an environment: how it ends, the final
  memory and environment, and the calls made, with their answers.
* `Prog.loop` — a loop with fuel, whose body says whether to go on (`Ctl`).
-/

namespace Resumption

/-- Why a program stops without returning. -/
inductive Halt where
  /-- A loop ran out of fuel. -/
  | fuel
  /-- The language gives the next step no meaning. -/
  | undefined
  deriving DecidableEq, Repr

/-- A program over shared memory `S` that makes calls `e : E`, each answered by an `R e`. -/
inductive Prog (S E : Type) (R : E → Type) (α : Type) : Type where
  /-- Return. -/
  | ret (a : α)
  /-- Stop without returning. -/
  | halt (w : Halt)
  /-- Read the shared memory. -/
  | get (k : S → Prog S E R α)
  /-- Write the shared memory. -/
  | put (s : S) (k : Prog S E R α)
  /-- Make a call and go on with its answer. -/
  | call (e : E) (k : R e → Prog S E R α)

/-- How a run ends. -/
inductive Outcome (α : Type) where
  /-- It returned. -/
  | ret (a : α)
  /-- It stopped. -/
  | halt (w : Halt)
  deriving DecidableEq, Repr

/-- What a loop body says: go round again, or leave the loop. -/
inductive Ctl (X ρ : Type) where
  /-- Go round again, with these values of the loop's variables. -/
  | next (x : X)
  /-- Leave the loop. -/
  | done (r : ρ)
  deriving DecidableEq, Repr

/-- A call with its answer. -/
abbrev Event (E : Type) (R : E → Type) := (e : E) × R e

variable {S E : Type} {R : E → Type} {α β X ρ σ : Type}

namespace Prog

/-- Run `p`, then what `f` makes of its result. -/
def bind : Prog S E R α → (α → Prog S E R β) → Prog S E R β
  | .ret a, f => f a
  | .halt w, _ => .halt w
  | .get k, f => .get fun s => (k s).bind f
  | .put s k, f => .put s (k.bind f)
  | .call e k, f => .call e fun r => (k r).bind f

instance : Monad (Prog S E R) where
  pure := .ret
  bind := bind

/-- The shared memory. -/
def read : Prog S E R S := .get .ret

/-- Change the shared memory. -/
def modify (f : S → S) : Prog S E R Unit := .get fun s => .put (f s) (.ret ())

/-- Make a call. -/
def perform (e : E) : Prog S E R (R e) := .call e .ret

theorem bind_ret (p : Prog S E R α) : p.bind .ret = p := by
  induction p with
  | ret a => rfl
  | halt w => rfl
  | get k ih => simp only [bind, ih]
  | put s k ih => simp only [bind, ih]
  | call e k ih => simp only [bind, ih]

theorem bind_assoc {γ : Type} (p : Prog S E R α) (f : α → Prog S E R β) (g : β → Prog S E R γ) :
    (p.bind f).bind g = p.bind fun a => (f a).bind g := by
  induction p with
  | ret a => rfl
  | halt w => rfl
  | get k ih => simp only [bind, ih]
  | put s k ih => simp only [bind, ih]
  | call e k ih => simp only [bind, ih]

instance : LawfulMonad (Prog S E R) :=
  LawfulMonad.mk' _ (fun p => bind_ret p) (fun _ _ => rfl) bind_assoc

/-- A loop: the body is run until it says to leave, at most `fuel` times. -/
def loop : ℕ → (X → Prog S E R (Ctl X ρ)) → X → Prog S E R ρ
  | 0, _, _ => .halt .fuel
  | n + 1, body, x => body x >>= fun
    | .next x' => loop n body x'
    | .done r => pure r

end Prog

/-! ### Running -/

/-- An environment with state `σ`: its answer to a call, and its next state. -/
abbrev Env (E : Type) (R : E → Type) (σ : Type) := σ → (e : E) → R e × σ

/-- What a run leaves behind. -/
structure Result (S E : Type) (R : E → Type) (σ α : Type) where
  /-- How it ended. -/
  out : Outcome α
  /-- The shared memory. -/
  mem : S
  /-- The environment. -/
  env : σ
  /-- The calls made, in order, with their answers. -/
  trace : List (Event E R)

/-- The run of a program from memory `s`, against an environment in state `w`. -/
def Prog.run (env : Env E R σ) : Prog S E R α → S → σ → Result S E R σ α
  | .ret a, s, w => ⟨.ret a, s, w, []⟩
  | .halt h, s, w => ⟨.halt h, s, w, []⟩
  | .get k, s, w => (k s).run env s w
  | .put s' k, _, w => k.run env s' w
  | .call e k, s, w =>
    let x := (k (env w e).1).run env s (env w e).2
    { x with trace := ⟨e, (env w e).1⟩ :: x.trace }

/-- Go on from a result: only a run that returned goes on. -/
def Result.andThen (x : Result S E R σ α) (f : α → S → σ → Result S E R σ β) : Result S E R σ β :=
  match x.out with
  | .ret a => { f a x.mem x.env with trace := x.trace ++ (f a x.mem x.env).trace }
  | .halt h => ⟨.halt h, x.mem, x.env, x.trace⟩

section Run

variable (env : Env E R σ)

@[simp] theorem Prog.run_pure (a : α) (s : S) (w : σ) :
    (pure a : Prog S E R α).run env s w = ⟨.ret a, s, w, []⟩ := rfl

@[simp] theorem Prog.run_halt (h : Halt) (s : S) (w : σ) :
    (.halt h : Prog S E R α).run env s w = ⟨.halt h, s, w, []⟩ := rfl

@[simp] theorem Prog.run_read (s : S) (w : σ) :
    (read : Prog S E R S).run env s w = ⟨.ret s, s, w, []⟩ := rfl

@[simp] theorem Prog.run_modify (f : S → S) (s : S) (w : σ) :
    (modify f : Prog S E R Unit).run env s w = ⟨.ret (), f s, w, []⟩ := rfl

@[simp] theorem Prog.run_perform (e : E) (s : S) (w : σ) :
    (perform e : Prog S E R (R e)).run env s w =
      ⟨.ret (env w e).1, s, (env w e).2, [⟨e, (env w e).1⟩]⟩ := rfl

/-- A sequence runs its parts one after the other. -/
theorem Prog.run_bind (p : Prog S E R α) (f : α → Prog S E R β) (s : S) (w : σ) :
    (p >>= f).run env s w = (p.run env s w).andThen fun a s' w' => (f a).run env s' w' := by
  change (p.bind f).run env s w = _
  induction p generalizing s w with
  | ret a => simp [bind, Prog.run, Result.andThen]
  | halt h => rfl
  | get k ih => exact ih s s w
  | put s' k ih => exact ih s' w
  | call e k ih =>
    simp only [bind, Prog.run, ih]
    unfold Result.andThen
    cases ((k (env w e).1).run env s (env w e).2).out <;> simp

end Run

end Resumption
