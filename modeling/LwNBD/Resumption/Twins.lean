import LwNBD.Resumption.Interleave

/-!
# Two runs side by side

Two programs that differ in data which they do not use go on alike. They are run side by side, each
in its own environment: at each place they make calls that are like each other, and go on alike if
the answers are like each other.

## The model

* `Twins` — two programs go on alike.
* `Echoes` — two environments answer like calls alike, and go on the same.

## What is proved

* `Twins.bind`, `Twins.loop` — how twins are put together.
* `Twins.run` — twins end alike, on the same memory, and what they called is alike.
* `Twins.eq` — twins that make the same calls are one program.
-/

namespace Resumption

variable {S E : Type} {R : E → Type} {α β X ρ σ : Type}

section Twins

variable (asks : E → E → Prop) (like : Event E R → Event E R → Prop)

/-- Two programs go on alike, on the same memory: they make calls that are asked alike, and if these
are answered alike they do so again. -/
inductive Twins (ρ : α → β → Prop) : Prog S E R α → Prog S E R β → Prop where
  /-- They return. -/
  | ret {a : α} {b : β} : ρ a b → Twins ρ (.ret a) (.ret b)
  /-- They stop. -/
  | halt {h : Halt} : Twins ρ (.halt h) (.halt h)
  /-- They read the memory. -/
  | get {k : S → Prog S E R α} {k' : S → Prog S E R β} : (∀ s, Twins ρ (k s) (k' s)) →
      Twins ρ (.get k) (.get k')
  /-- They write the same. -/
  | put {s : S} {p : Prog S E R α} {p' : Prog S E R β} : Twins ρ p p' →
      Twins ρ (.put s p) (.put s p')
  /-- They make calls. -/
  | call {e e' : E} {k : R e → Prog S E R α} {k' : R e' → Prog S E R β} : asks e e' →
    (∀ r r', like ⟨e, r⟩ ⟨e', r'⟩ → Twins ρ (k r) (k' r')) → Twins ρ (.call e k) (.call e' k')

/-- Two environments answer like calls alike, and go on the same. -/
structure Echoes (env env' : Env E R σ) : Prop where
  /-- The answers. -/
  answer : ∀ w e e', asks e e' → like ⟨e, (env w e).1⟩ ⟨e', (env' w e').1⟩
  /-- What they go on as. -/
  next : ∀ w e e', asks e e' → (env' w e').2 = (env w e).2

/-- How two runs end. -/
inductive Outcome.Alike (ρ : α → β → Prop) : Outcome α → Outcome β → Prop where
  /-- Both returned. -/
  | ret {a : α} {b : β} : ρ a b → Outcome.Alike ρ (.ret a) (.ret b)
  /-- Both stopped. -/
  | halt {h : Halt} : Outcome.Alike ρ (.halt h) (.halt h)

variable {asks like} {ρ : α → β → Prop}

theorem Twins.pure {a : α} {b : β} (h : ρ a b) :
    Twins asks like ρ (Pure.pure a : Prog S E R α) (Pure.pure b : Prog S E R β) := .ret h

theorem Twins.bind {γ δ : Type} {ρ' : γ → δ → Prop} {p : Prog S E R α} {p' : Prog S E R β}
    {f : α → Prog S E R γ} {f' : β → Prog S E R δ} (hp : Twins asks like ρ p p')
    (hf : ∀ a b, ρ a b → Twins asks like ρ' (f a) (f' b)) :
    Twins asks like ρ' (p >>= f) (p' >>= f') := by
  change Twins asks like ρ' (p.bind f) (p'.bind f')
  induction hp with
  | ret h => exact hf _ _ h
  | halt => exact .halt
  | get _ ih => exact .get ih
  | put _ ih => exact .put ih
  | call he _ ih => exact .call he ih

theorem Twins.bind_same {γ δ : Type} {ρ' : γ → δ → Prop} {p p' : Prog S E R α}
    {f : α → Prog S E R γ} {f' : α → Prog S E R δ} (hp : Twins asks like Eq p p')
    (hf : ∀ a, Twins asks like ρ' (f a) (f' a)) : Twins asks like ρ' (p >>= f) (p' >>= f') := by
  refine hp.bind ?_
  rintro a _ rfl
  exact hf a

theorem Twins.read : Twins asks like Eq (Prog.read : Prog S E R S) Prog.read :=
  .get fun _ => .ret rfl

theorem Twins.modify (f : S → S) :
    Twins asks like Eq (Prog.modify f : Prog S E R Unit) (Prog.modify f) :=
  .get fun _ => .put (.ret rfl)

theorem Twins.ite {c : Prop} [Decidable c] {p q : Prog S E R α} {p' q' : Prog S E R β}
    (hp : c → Twins asks like ρ p p') (hq : ¬ c → Twins asks like ρ q q') :
    Twins asks like ρ (if c then p else q) (if c then p' else q') := by
  split_ifs with h
  · exact hp h
  · exact hq h

theorem Twins.loop {X' : Type} (χ : X → X' → Prop) {body : X → Prog S E R (Ctl X α)}
    {body' : X' → Prog S E R (Ctl X' β)}
    (hbody : ∀ x x', χ x x' → Twins asks like (Ctl.Rel χ ρ) (body x) (body' x'))
    (n : ℕ) {x : X} {x' : X'} (hx : χ x x') :
    Twins asks like ρ (Prog.loop n body x) (Prog.loop n body' x') := by
  induction n generalizing x x' with
  | zero => exact .halt
  | succ n ih =>
    refine (hbody x x' hx).bind ?_
    rintro (y | r) (y' | r') h
    · exact ih h
    · exact h.elim
    · exact h.elim
    · exact .ret h

/-- Twins end alike, on the same memory and in the same environment, and what they called is
alike. -/
theorem Twins.run {p : Prog S E R α} {p' : Prog S E R β} (h : Twins asks like ρ p p')
    {env env' : Env E R σ} (henv : Echoes asks like env env') (s : S) (w : σ) :
    Outcome.Alike ρ (p.run env s w).out (p'.run env' s w).out ∧
    (p'.run env' s w).mem = (p.run env s w).mem ∧ (p'.run env' s w).env = (p.run env s w).env ∧
    List.Forall₂ like (p.run env s w).trace (p'.run env' s w).trace := by
  induction h generalizing s w with
  | ret h => exact ⟨.ret h, rfl, rfl, .nil⟩
  | halt => exact ⟨.halt, rfl, rfl, .nil⟩
  | get _ ih => exact ih s s w
  | put _ ih => exact ih _ w
  | @call e e' k k' he _ ih =>
    have hlike := henv.answer w e e' he
    obtain ⟨hout, hmem, hend, htrace⟩ := ih _ _ hlike s (env w e).2
    rw [← henv.next w e e' he] at hmem hend htrace hout
    simp only [Prog.run]
    rw [← henv.next w e e' he]
    exact ⟨hout, hmem, hend, .cons hlike htrace⟩

end Twins

/-- Twins that make the same calls and return the same are one program. -/
theorem Twins.eq {p p' : Prog S E R α} (h : Twins Eq Eq Eq p p') : p' = p := by
  induction h with
  | ret h => rw [h]
  | halt => rfl
  | get _ ih => exact congrArg _ (funext ih)
  | put _ ih => rw [ih]
  | call he _ ih =>
    subst he
    exact congrArg _ (funext fun r => ih r r rfl)

theorem Twins.refl (p : Prog S E R α) : Twins Eq Eq Eq p p := by
  induction p with
  | ret a => exact .ret rfl
  | halt e => exact .halt
  | get k ih => exact .get ih
  | put s k ih => exact .put ih
  | call e k ih =>
    refine .call rfl ?_
    rintro r _ ⟨⟩
    exact ih r

end Resumption
