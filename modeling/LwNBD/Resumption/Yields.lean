import LwNBD.Resumption.Keeps
import LwNBD.Resumption.Only

/-!
# What a program calls and returns

What a program calls often depends on what its parts return: a length it asks for is one that an
earlier part computed. So the calls are bounded together with the results.

## The model

* `Prog.Yields ok post` — all calls are `ok`, and what is returned is as `post` says.

## What is proved

* `Prog.Yields.bind`, `Prog.Yields.loop` — composition.
* `Prog.Yields.only` — the calls.
-/

namespace Resumption

variable {S E : Type} {R : E → Type} {α β X ρ : Type}

/-- All calls that a program makes, on whatever path, are `ok`, and what it returns is as `post`
says. -/
def Prog.Yields (ok : E → Prop) (post : α → Prop) : Prog S E R α → Prop
  | .ret a => post a
  | .halt _ => True
  | .get k => ∀ s, (k s).Yields ok post
  | .put _ k => k.Yields ok post
  | .call e k => ok e ∧ ∀ r, (k r).Yields ok post

namespace Prog.Yields

variable {ok : E → Prop} {post : α → Prop} {post' : β → Prop}

theorem pure {a : α} (h : post a) : (Pure.pure a : Prog S E R α).Yields ok post := h

theorem halt (w : Halt) : (Prog.halt w : Prog S E R α).Yields ok post := trivial

theorem read : (Prog.read : Prog S E R S).Yields ok fun _ => True := fun _ => trivial

theorem modify (f : S → S) : (Prog.modify f : Prog S E R Unit).Yields ok fun _ => True :=
  fun _ => trivial

theorem perform {e : E} (he : ok e) : (Prog.perform e : Prog S E R (R e)).Yields ok fun _ => True :=
  ⟨he, fun _ => trivial⟩

theorem mono {post₁ : α → Prop} {p : Prog S E R α} (h : p.Yields ok post)
    (hpost : ∀ a, post a → post₁ a) : p.Yields ok post₁ := by
  induction p with
  | ret a => exact hpost a h
  | halt w => trivial
  | get k ih => exact fun s => ih s (h s)
  | put s k ih => exact ih h
  | call e k ih => exact ⟨h.1, fun r => ih r (h.2 r)⟩

theorem bind {p : Prog S E R α} {f : α → Prog S E R β} (hp : p.Yields ok post)
    (hf : ∀ a, post a → (f a).Yields ok post') : (p >>= f).Yields ok post' := by
  change (p.bind f).Yields ok post'
  induction p with
  | ret a => exact hf a hp
  | halt w => trivial
  | get k ih => exact fun s => ih s (hp s)
  | put s k ih => exact ih hp
  | call e k ih => exact ⟨hp.1, fun r => ih r (hp.2 r)⟩

theorem ite {c : Prop} [Decidable c] {p q : Prog S E R α} (hp : c → p.Yields ok post)
    (hq : ¬ c → q.Yields ok post) : (if c then p else q).Yields ok post := by
  split_ifs with h
  · exact hp h
  · exact hq h

/-- What the rounds of a loop keep of its variables is known in each of them. -/
theorem loop {body : X → Prog S E R (Ctl X ρ)} {post : ρ → Prop} (I : X → Prop)
    (hbody : ∀ x, I x → (body x).Yields ok (Ctl.Both I post)) (n : ℕ) {x : X} (hx : I x) :
    (Prog.loop n body x).Yields ok post := by
  induction n generalizing x with
  | zero => trivial
  | succ n ih =>
    refine bind (hbody x hx) fun c hc => ?_
    cases c with
    | next x' => exact ih hc
    | done r => exact hc

/-- The calls, whatever is returned. -/
theorem only {p : Prog S E R α} (h : p.Yields ok post) : p.Only ok := by
  induction p with
  | ret a => trivial
  | halt w => trivial
  | get k ih => exact fun s => ih s (h s)
  | put s k ih => exact ih h
  | call e k ih => exact ⟨h.1, fun r => ih r (h.2 r)⟩

end Prog.Yields

end Resumption
