import LwNBD.Resumption.Rules

/-!
# One environment for another

A program is proved against an environment that says what is known of the things below it, and runs
in one that is made of them. If both answer alike, the runs are the same.

## The model

* `Simulates ok env env' I` — the second environment answers as the first does, and `I` relates what
  they leave.
* `Env.within` — an environment kept to the states of which an invariant holds.
* `answered` — the environment whose calls are answered by programs.

## What is proved

* `Simulates.run` — a program runs alike in both.
-/

namespace Resumption

variable {S E : Type} {R : E → Type} {α σ τ : Type}

/-! ### Runs in two environments -/

/-- The second environment stands for the first: related to it, it answers a call that is `ok`
alike, and is related to it again. -/
def Simulates (ok : E → Prop) (env : Env E R σ) (env' : Env E R τ) (I : σ → τ → Prop) : Prop :=
  ∀ w w' e, ok e → I w w' → (env' w' e).1 = (env w e).1 ∧ I (env w e).2 (env' w' e).2

/-- A program runs alike in both, if the calls of the one run are `ok`. -/
theorem Simulates.run {ok : E → Prop} {env : Env E R σ} {env' : Env E R τ} {I : σ → τ → Prop}
    (h : Simulates ok env env' I) (p : Prog S E R α) (s : S) {w : σ} {w' : τ} (hI : I w w')
    (hok : ∀ e ∈ calls (p.run env s w).trace, ok e) :
    (p.run env' s w').out = (p.run env s w).out ∧ (p.run env' s w').mem = (p.run env s w).mem ∧
      (p.run env' s w').trace = (p.run env s w).trace ∧
      I (p.run env s w).env (p.run env' s w').env := by
  induction p generalizing s w w' with
  | ret a => exact ⟨rfl, rfl, rfl, hI⟩
  | halt e => exact ⟨rfl, rfl, rfl, hI⟩
  | get k ih => exact ih s s hI hok
  | put s' k ih => exact ih s' hI hok
  | call e k ih =>
    obtain ⟨hanswer, hnext⟩ := h w w' e (hok e List.mem_cons_self) hI
    obtain ⟨hout, hmem, htrace, henv⟩ := ih (env w e).1 s hnext fun e' he' =>
      hok e' (List.mem_cons_of_mem _ he')
    simp only [Prog.run, hanswer]
    exact ⟨hout, hmem, by rw [htrace], henv⟩

/-- The environment in the states of which `I` holds, where every call keeps `I`. -/
def Env.within (env : Env E R σ) (I : σ → Prop) (h : ∀ w e, I w → I (env w e).2) :
    Env E R {w // I w} :=
  fun w e => ((env w.1 e).1, ⟨(env w.1 e).2, h w.1 e w.2⟩)

/-- The environment stands for itself, kept to these states. -/
theorem within_simulates {env : Env E R σ} {I : σ → Prop} (h : ∀ w e, I w → I (env w e).2)
    (ok : E → Prop) : Simulates ok (env.within I h) env fun w w' => w.1 = w' := by
  rintro w _ e - rfl
  exact ⟨rfl, rfl⟩

/-! ### Calls that are answered by programs -/

/-- The environment whose calls are answered by programs: a call is answered by the run of a program
over memory `T`, in the environment `env`; `answer` reads off that run what it returned and
stored. -/
def answered {T F : Type} {Q : F → Type} {ζ : E → Type} (env : Env F Q τ)
    (p : (e : E) → Prog T F Q (ζ e)) (answer : (e : E) → Result T F Q τ (ζ e) → R e) :
    Env E R (T × τ) := fun w e =>
  (answer e ((p e).run env w.1 w.2), ((p e).run env w.1 w.2).mem, ((p e).run env w.1 w.2).env)

end Resumption
