import LwNBD.Resumption.Interleave
import LwNBD.Resumption.Rules

/-!
# What a program may call

A program makes only certain calls if all its paths do, whatever the memory and the answers. Then so
does every run of it, alone or interleaved with others: what such calls keep holds of the
environment after any schedule.

## The model

* `Prog.Only ok` — all calls are `ok`.

## What is proved

* `Prog.Only.bind`, `Prog.Only.calls` — composition, and the calls of a run.
* `Conf.run_inv` — the invariant rule for the environment of interleaved programs.
-/

namespace Resumption

variable {S E : Type} {R : E → Type} {α β σ ι : Type}

/-- All calls that a program makes, on whatever path, are `ok`. -/
def Prog.Only (ok : E → Prop) : Prog S E R α → Prop
  | .ret _ => True
  | .halt _ => True
  | .get k => ∀ s, (k s).Only ok
  | .put _ k => k.Only ok
  | .call e k => ok e ∧ ∀ r, (k r).Only ok

namespace Prog.Only

variable {ok ok' : E → Prop} {p : Prog S E R α} {f : α → Prog S E R β}

theorem mono (h : p.Only ok) (hok : ∀ e, ok e → ok' e) : p.Only ok' := by
  induction p with
  | ret a => trivial
  | halt w => trivial
  | get k ih => exact fun s => ih s (h s)
  | put s k ih => exact ih h
  | call e k ih => exact ⟨hok e h.1, fun r => ih r (h.2 r)⟩

theorem pure (a : α) : (Pure.pure a : Prog S E R α).Only ok := trivial

theorem read : (Prog.read : Prog S E R S).Only ok := fun _ => trivial

theorem modify (f : S → S) : (Prog.modify f : Prog S E R Unit).Only ok := fun _ => trivial

theorem perform {e : E} (he : ok e) : (Prog.perform e : Prog S E R (R e)).Only ok :=
  ⟨he, fun _ => trivial⟩

theorem bind (hp : p.Only ok) (hf : ∀ a, (f a).Only ok) : (p >>= f).Only ok := by
  change (p.bind f).Only ok
  induction p with
  | ret a => exact hf a
  | halt w => trivial
  | get k ih => exact fun s => ih s (hp s)
  | put s k ih => exact ih hp
  | call e k ih => exact ⟨hp.1, fun r => ih r (hp.2 r)⟩

theorem ite {c : Prop} [Decidable c] {q : Prog S E R α} (hp : p.Only ok) (hq : q.Only ok) :
    (if c then p else q).Only ok := by
  split_ifs
  · exact hp
  · exact hq

theorem calls (h : p.Only ok) (env : Env E R σ) (s : S) (w : σ) :
    ∀ e ∈ Resumption.calls (p.run env s w).trace, ok e := by
  induction p generalizing s w with
  | ret a => simp [Prog.run]
  | halt w => simp [Prog.run]
  | get k ih => exact ih s (h s) s w
  | put s' k ih => exact ih h s' w
  | call e k ih =>
    intro e' he'
    rcases List.mem_cons.mp he' with rfl | he'
    · exact h.1
    · exact ih _ (h.2 _) s _ e' he'

/-- A step makes a call that is `ok`, if any, and goes on so. -/
theorem settle (h : p.Only ok) (s : S) : (p.settle s).1.Only ok := by
  induction p generalizing s with
  | ret a => trivial
  | halt w => trivial
  | get k ih => exact ih s (h s) s
  | put s' k ih => exact ih h s'
  | call e k ih => exact h

theorem act (h : p.Only ok) (env : Env E R σ) (w : σ) : (p.act env w).1.Only ok := by
  cases p with
  | ret a => trivial
  | halt w => trivial
  | get k => exact h
  | put s k => exact h
  | call e k => exact h.2 _

end Prog.Only

section Agree

variable {ok mute tells : E → Prop} {seen : S → Prop} {ρ : α → β → Prop}
  {same : Prop} {p : Prog S E R α} {p' : Prog S E R β}

/-- A program that agrees with another makes no calls but such as it may. -/
theorem AgreeIf.calls (h : AgreeIf ok mute tells seen ρ same p p') (hsame : same)
    (env : Env E R σ) {s : S} (hs : seen s) (w : σ) :
    ∀ e ∈ Resumption.calls (p.run env s w).trace, ok e ∨ mute e := by
  induction h generalizing s w with
  | ret => simp [Prog.run]
  | halt => simp [Prog.run]
  | get _ ih => exact ih s s hs hs (fun _ => rfl) hsame hs w
  | put h _ _ _ ih => exact ih hsame h w
  | call he _ ih =>
    intro e' he'
    rcases List.mem_cons.mp he' with rfl | he'
    · exact .inl he
    · exact ih _ True trivial hs _ e' he'
  | @mute _ e e₁ k k₁ he _ _ ih =>
    intro e' he'
    rcases List.mem_cons.mp he' with rfl | he'
    · exact .inr he
    · exact ih _ (env w e₁).1 True trivial hs _ e' he'
  | tells hn => exact absurd hsame hn

theorem Agree.calls (h : Agree ok mute tells seen ρ p p') (env : Env E R σ) {s : S}
    (hs : seen s) (w : σ) : ∀ e ∈ Resumption.calls (p.run env s w).trace, ok e ∨ mute e :=
  (h True).calls trivial env hs w

end Agree

section Interleaved

variable [DecidableEq ι] {env : ι → Env E R σ} {ok : ι → E → Prop} {c : Conf ι S E R σ α}

/-- Each program goes on making calls that are `ok` for it. -/
theorem Conf.step_only (h : ∀ i, (c.prog i).Only (ok i)) (i j : ι) :
    ((c.step env i).prog j).Only (ok j) := by
  by_cases hj : j = i
  · subst hj
    rw [Conf.step_self]
    exact ((h j).settle c.mem).act _ _
  · rw [Conf.step_ne hj]
    exact h j

/-- The invariant rule for interleaved programs: what is kept by every call that a program may make,
where it is made as `guard` says, holds after every schedule in which each is. -/
theorem Conf.run_inv (I : σ → Prop) (guard : ι → E → σ → Prop)
    (hcall : ∀ i e w, ok i e → guard i e w → I w → I (env i w e).2)
    (h : ∀ i, (c.prog i).Only (ok i)) (hI : I c.env) (sched : List ι)
    (hguard : ∀ pre i e, pre ++ [i] <+: sched →
      (c.run env pre).next? i = some e → guard i e (c.run env pre).env) :
      I (c.run env sched).env := by
  induction sched generalizing c with
  | nil => exact hI
  | cons i sched ih =>
    rw [Conf.run_cons]
    refine ih (Conf.step_only h i) ?_ fun pre j e hpre =>
      hguard (i :: pre) j e (by simpa using hpre)
    have hnext : ∀ e, c.next? i = some e → guard i e c.env := fun e => hguard [] i e (by simp)
    show I ((((c.prog i).settle c.mem).1.act (env i) c.env).2)
    have honly := (h i).settle c.mem
    unfold Conf.next? at hnext
    cases hp : ((c.prog i).settle c.mem).1 with
    | call e k =>
      rw [hp] at honly hnext
      exact hcall i e c.env honly.1 (hnext e rfl) hI
    | ret a => exact hI
    | halt w => exact hI
    | get k => exact hI
    | put s k => exact hI

end Interleaved

end Resumption
