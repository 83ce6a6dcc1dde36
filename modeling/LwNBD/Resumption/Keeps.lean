import LwNBD.Resumption.Count

/-!
# What a program leaves of its memory

A program keeps a relation if the memory it ends in, however it ends and whatever it is answered, is
related to the one it started from. For a relation that is reflexive and transitive this is shown
part by part, with what is known of the results of the parts.

## The model

* `Prog.Keeps rel post` — the program keeps `rel`, and what it returns is as `post` says.

## What is proved

* `Prog.Keeps.bind`, `Prog.Keeps.loop`, `Prog.Keeps.count` — composition.
-/

namespace Resumption

variable {S E : Type} {R : E → Type} {α β X ρ : Type}

/-- However it ends, the memory is related to the one before, and if it returns its result is as
`post` says. -/
def Prog.Keeps (rel : S → S → Prop) (post : α → Prop) (p : Prog S E R α) (s : S) : Prop :=
  ∀ (σ : Type) (env : Env E R σ) (w : σ), wp env p (fun o s' _ _ => rel s s' ∧
    ∀ a, o = .ret a → post a) s w

/-- What is known when a round of a loop returns. -/
def Ctl.Both (I : X → Prop) (post : ρ → Prop) : Ctl X ρ → Prop
  | .next x => I x
  | .done r => post r

namespace Prog.Keeps

variable {rel : S → S → Prop} {post : α → Prop} {post' : β → Prop} {s : S}

theorem mono {post₁ : α → Prop} {p : Prog S E R α} (h : p.Keeps rel post s)
    (hpost : ∀ a, post a → post₁ a) : p.Keeps rel post₁ s :=
  fun σ env w => ⟨(h σ env w).1, fun a ha => hpost a ((h σ env w).2 a ha)⟩

section Preorder

variable (hrefl : ∀ s, rel s s) (htrans : ∀ s s' s'', rel s s' → rel s' s'' → rel s s'')

include hrefl in
theorem pure {a : α} (ha : post a) : (Pure.pure a : Prog S E R α).Keeps rel post s := fun _ _ _ =>
  ⟨hrefl s, fun _ h => by cases h; exact ha⟩

include hrefl in
theorem halt (e : Halt) : (Prog.halt e : Prog S E R α).Keeps rel post s := fun _ _ _ =>
  ⟨hrefl s, fun _ h => by cases h⟩

include hrefl in
theorem perform (e : E) : (Prog.perform e : Prog S E R (R e)).Keeps rel (fun _ => True) s :=
  fun _ _ _ =>
  ⟨hrefl s, fun _ _ => trivial⟩

theorem modify {f : S → S} (hf : rel s (f s)) :
    (Prog.modify f : Prog S E R Unit).Keeps rel (fun _ => True) s :=
  fun _ _ _ => ⟨hf, fun _ _ => trivial⟩

theorem read_bind {f : S → Prog S E R α} (hf : (f s).Keeps rel post s) :
    (Prog.read >>= f).Keeps rel post s := fun σ env w => by
  rw [wp_bind, wp_read, Post.seq_ret, Post.after_nil]
  exact hf σ env w

include htrans in
theorem bind {p : Prog S E R α} {f : α → Prog S E R β} (hp : p.Keeps rel post s)
    (hf : ∀ a s', post a → rel s s' → (f a).Keeps rel post' s') : (p >>= f).Keeps rel post' s :=
  fun σ env w => by
  rw [wp_bind]
  refine wp_mono env ?_ (hp σ env w)
  intro o s' w' t h
  cases o with
  | ret a =>
    rw [Post.seq_ret]
    refine wp_mono env ?_ (hf a s' (h.2 a rfl) h.1 σ env w')
    intro o' s'' w'' t' h'
    exact ⟨htrans _ _ _ h.1 h'.1, h'.2⟩
  | halt e => exact ⟨h.1, fun _ h => by cases h⟩

include hrefl htrans in
theorem loop {body : X → Prog S E R (Ctl X ρ)} {post : ρ → Prop} (I : X → Prop)
    (hbody : ∀ x s, I x → (body x).Keeps rel (Ctl.Both I post) s) (n : ℕ) {x : X} (hx : I x) :
    (Prog.loop n body x).Keeps rel post s := by
  induction n generalizing x s with
  | zero => exact halt hrefl _
  | succ n ih =>
    refine bind htrans (hbody x s hx) fun c s' hc _ => ?_
    cases c with
    | next x' => exact ih hc
    | done r => exact pure hrefl hc

include hrefl htrans in
theorem count {body : ℕ → X → Prog S E R (Ctl X ρ)} {post : ρ → Prop} (I : X → Prop)
    (hbody : ∀ j x s, I x → (body j x).Keeps rel (Ctl.Both I post) s) (n j : ℕ) {x : X} (hx : I x) :
    (Prog.count body n j x).Keeps rel (Ctl.Both I post) s := by
  induction n generalizing j x s with
  | zero => exact pure hrefl hx
  | succ n ih =>
    refine bind htrans (hbody j x s hx) fun c s' hc _ => ?_
    cases c with
    | next x' => exact ih (j + 1) hc
    | done r => exact pure hrefl hc

end Preorder

theorem ite {c : Prop} [Decidable c] {p q : Prog S E R α} (hp : c → p.Keeps rel post s)
    (hq : ¬ c → q.Keeps rel post s) :
    (if c then p else q).Keeps rel post s := by
  by_cases h : c
  · rw [if_pos h]
    exact hp h
  · rw [if_neg h]
    exact hq h

end Prog.Keeps

end Resumption
