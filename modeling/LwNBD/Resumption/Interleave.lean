import Mathlib.Data.List.Basic
import Mathlib.Data.List.Induction
import Mathlib.Logic.Function.Basic
import LwNBD.Data.Runs
import LwNBD.Resumption.Prog

/-!
# Interleaved programs

Several programs that share a memory and an environment, one for each `i : ι`, run a step at
a time in an order that a schedule says. A step is one call, with what the program does to the
memory before it.

## The model

* `Prog.settle`, `Prog.act` — the silent part of a step, and its call.
* `Conf` — the programs, the memory and the environment; `Conf.run` — what a schedule leads
  to.
* `Agree` — two programs do the same, whatever they see of the memory besides what all of them
  see (`seen`): they make the same calls but for those that tell nothing (`mute`), every call is
  `ok`, and only calls that tell more (`tells`) depend on the rest of the memory.
* `Conf.Starts` — programs that agree with themselves from their first call on.

## What is proved

* `Conf.run_alone` — a program that is scheduled alone runs as `Prog.run` says.
* `Conf.Starts.run` — in every run, programs that have started agree with themselves.
* `noninterference` — the part of the environment that belongs to one of them is, after any
  schedule, as it is when that program is scheduled alone.
-/

namespace Resumption

variable {S E : Type} {R : E → Type} {α β γ X Y ρ σ ι P : Type}

/-! ### Steps -/

/-- Read and write the memory up to the next call. -/
def Prog.settle : Prog S E R α → S → Prog S E R α × S
  | .get k, s => (k s).settle s
  | .put s k, _ => k.settle s
  | p, s => (p, s)

/-- Make the call. -/
def Prog.act (env : Env E R σ) : Prog S E R α → σ → Prog S E R α × σ
  | .call e k, w => (k (env w e).1, (env w e).2)
  | p, w => (p, w)

/-- The call that is made. -/
def Prog.call? : Prog S E R α → Option E
  | .call e _ => some e
  | _ => none

/-- The programs, the memory they share, and the environment. -/
structure Conf (ι S E : Type) (R : E → Type) (σ α : Type) where
  /-- The programs, as they are now. -/
  prog : ι → Prog S E R α
  /-- The memory. -/
  mem : S
  /-- The environment. -/
  env : σ

section Run

variable [DecidableEq ι] (env : ι → Env E R σ)

/-- The call that the next step of program `i` makes. -/
def Conf.next? (c : Conf ι S E R σ α) (i : ι) : Option E := ((c.prog i).settle c.mem).1.call?

/-- A step of program `i`, in its environment `env i`. -/
def Conf.step (c : Conf ι S E R σ α) (i : ι) : Conf ι S E R σ α :=
  let p := (c.prog i).settle c.mem
  let q := p.1.act (env i) c.env
  ⟨Function.update c.prog i q.1, p.2, q.2⟩

/-- The steps of a schedule. -/
def Conf.run (c : Conf ι S E R σ α) (sched : List ι) : Conf ι S E R σ α :=
  sched.foldl (Conf.step env) c

@[simp] theorem Conf.run_nil (c : Conf ι S E R σ α) : c.run env [] = c := rfl

@[simp] theorem Conf.run_cons (c : Conf ι S E R σ α) (i : ι) (sched : List ι) :
    c.run env (i :: sched) = (c.step env i).run env sched := rfl

theorem Conf.run_concat (c : Conf ι S E R σ α) (sched : List ι) (i : ι) :
    c.run env (sched ++ [i]) = (c.run env sched).step env i := by
  rw [Conf.run, List.foldl_append]
  rfl

variable {env} {c : Conf ι S E R σ α} {i j : ι}

@[simp] theorem Conf.step_self :
    (c.step env i).prog i = (((c.prog i).settle c.mem).1.act (env i) c.env).1 :=
  Function.update_self ..

theorem Conf.step_ne (h : j ≠ i) : (c.step env i).prog j = c.prog j := Function.update_of_ne h ..

/-! ### A program alone -/

/-- After its silent part a program has ended, or makes a call. -/
theorem Prog.settle_cases (p : Prog S E R α) (s : S) : (∃ a, (p.settle s).1 = .ret a) ∨
    (∃ h, (p.settle s).1 = .halt h) ∨ ∃ e k, (p.settle s).1 = .call e k := by
  induction p generalizing s with
  | ret a => exact .inl ⟨a, rfl⟩
  | halt h => exact .inr (.inl ⟨h, rfl⟩)
  | get k ih => exact ih s s
  | put s' k ih => exact ih s'
  | call e k => exact .inr (.inr ⟨e, k, rfl⟩)

/-- The silent part of a step is a part of the run. -/
theorem Prog.run_settle (f : Env E R σ) (p : Prog S E R α) (s : S) (w : σ) :
    (p.settle s).1.run f (p.settle s).2 w = p.run f s w := by
  induction p generalizing s with
  | get k ih => exact ih s s
  | put s' k ih => exact ih s'
  | ret | halt | call => rfl

/-- A program that has ended takes no more steps. -/
theorem Conf.run_ended (hend : (∃ a, c.prog i = .ret a) ∨ ∃ h, c.prog i = .halt h) (n : ℕ) :
    (c.run env (List.replicate n i)).env = c.env := by
  have hstep : c.step env i = c := by
    have hself : ∀ p, c.prog i = p →
        (⟨Function.update c.prog i p, c.mem, c.env⟩ : Conf ι S E R σ α) = c := by
      rintro p rfl
      rw [Function.update_eq_self]
    rcases hend with ⟨a, h⟩ | ⟨e, h⟩
    · rw [Conf.step, h]
      exact hself _ h
    · rw [Conf.step, h]
      exact hself _ h
  induction n with
  | zero => rfl
  | succ n ih => rw [List.replicate_succ, Conf.run_cons, hstep, ih]

/-- A program that is scheduled alone, for long enough, runs to its end. -/
theorem Conf.run_alone (n : ℕ) (hn : ((c.prog i).run (env i) c.mem c.env).trace.length < n) :
    (c.run env (List.replicate n i)).env = ((c.prog i).run (env i) c.mem c.env).env := by
  induction n generalizing c with
  | zero => exact absurd hn (Nat.not_lt_zero _)
  | succ n ih =>
    rw [List.replicate_succ, Conf.run_cons, ← Prog.run_settle]
    rw [← Prog.run_settle] at hn
    rcases (c.prog i).settle_cases c.mem with ⟨a, h⟩ | ⟨e, h⟩ | ⟨e, k, h⟩
    · rw [Conf.run_ended (.inl ⟨a, by rw [Conf.step_self, h]; rfl⟩), h]
      simp [Conf.step, h, Prog.act, Prog.run]
    · rw [Conf.run_ended (.inr ⟨e, by rw [Conf.step_self, h]; rfl⟩), h]
      simp [Conf.step, h, Prog.act, Prog.run]
    · have hprog : (c.step env i).prog i = k (env i c.env e).1 := by rw [Conf.step_self, h]; rfl
      have henv : (c.step env i).env = (env i c.env e).2 := by simp [Conf.step, h, Prog.act]
      rw [h] at hn ⊢
      rw [ih, hprog, henv]
      · rfl
      · rw [hprog, henv]
        exact Nat.lt_of_succ_lt_succ hn

end Run

/-! ### Programs that agree -/

/-- Whatever is seen of the memory, the next call tells more than that. -/
def Prog.Tells (tells : E → Prop) (seen : S → Prop) (p : Prog S E R α) : Prop :=
  ∀ s, seen s → ∃ e, (p.settle s).1.call? = some e ∧ tells e

/-- What comes after the next call does not matter. -/
theorem Prog.settle_bind {p : Prog S E R α} {f : α → Prog S E R β} {s : S} {e : E}
    (h : (p.settle s).1.call? = some e) : ((p >>= f).settle s).1.call? = some e := by
  change ((p.bind f).settle s).1.call? = some e
  induction p generalizing s with
  | ret a => cases h
  | halt w => cases h
  | get k ih => exact ih s h
  | put s' k ih => exact ih h
  | call e' k => exact h

/-- When a part returns at once, what follows is next. -/
theorem Prog.settle_bind_ret {p : Prog S E R α} {a : α} {s s' : S} (h : p.settle s = (.ret a, s'))
    (f : α → Prog S E R β) : (p >>= f).settle s = (f a).settle s' := by
  change (p.bind f).settle s = _
  induction p generalizing s with
  | ret b => cases h; rfl
  | halt w => cases h
  | get k ih => exact ih s h
  | put s'' k ih => exact ih h
  | call e k => cases h

theorem Prog.Tells.bind {tells : E → Prop} {seen : S → Prop} {p : Prog S E R α}
    (h : p.Tells tells seen) (f : α → Prog S E R β) : (p >>= f).Tells tells seen := by
  intro s hs
  obtain ⟨e, he, ht⟩ := h s hs
  exact ⟨e, Prog.settle_bind he, ht⟩

section Agree

variable (ok mute tells : E → Prop) (seen : S → Prop)

/-- Two programs do the same, on memories of which `seen` holds and which they leave so, with
results of which `ρ` holds; up to the next call the memories are equal, if `same`. -/
inductive AgreeIf (ρ : α → β → Prop) : Prop → Prog S E R α → Prog S E R β → Prop where
  /-- They return. -/
  | ret {same : Prop} {a : α} {b : β} : ρ a b → AgreeIf ρ same (.ret a) (.ret b)
  /-- They stop. -/
  | halt {same : Prop} {h : Halt} : AgreeIf ρ same (.halt h) (.halt h)
  /-- They read the memory, and go on alike whatever else is in it. -/
  | get {same : Prop} {k : S → Prog S E R α} {k' : S → Prog S E R β} :
    (∀ s s', seen s → seen s' → (same → s = s') → AgreeIf ρ same (k s) (k' s')) →
    AgreeIf ρ same (.get k) (.get k')
  /-- They write it. -/
  | put {same : Prop} {s s' : S} {p : Prog S E R α} {p' : Prog S E R β} :
    seen s → seen s' → (same → s = s') → AgreeIf ρ same p p' →
    AgreeIf ρ same (.put s p) (.put s' p')
  /-- They make the same call. -/
  | call {same : Prop} {e : E} {k : R e → Prog S E R α} {k' : R e → Prog S E R β} :
    ok e → (∀ r same', AgreeIf ρ same' (k r) (k' r)) → AgreeIf ρ same (.call e k) (.call e k')
  /-- They make calls that tell nothing. -/
  | mute {same : Prop} {e e' : E} {k : R e → Prog S E R α} {k' : R e' → Prog S E R β} :
    mute e → mute e' → (∀ r r' same', AgreeIf ρ same' (k r) (k' r')) →
    AgreeIf ρ same (.call e k) (.call e' k')
  /-- The next call tells more than what is seen: then they need not do the same. -/
  | tells {same : Prop} {p : Prog S E R α} {p' : Prog S E R β} :
    ¬ same → p.Tells tells seen → AgreeIf ρ same p p'

/-- They do the same, whether the memories are equal or not. -/
def Agree (ρ : α → β → Prop) (p : Prog S E R α) (p' : Prog S E R β) : Prop :=
  ∀ same, AgreeIf ok mute tells seen ρ same p p'

variable {ok mute tells seen} {ρ : α → β → Prop} {same : Prop}

theorem AgreeIf.bind {γ δ : Type} {ρ' : γ → δ → Prop} {p : Prog S E R α} {p' : Prog S E R β}
    {f : α → Prog S E R γ} {f' : β → Prog S E R δ} (hp : AgreeIf ok mute tells seen ρ same p p')
    (hf : ∀ a b, ρ a b → Agree ok mute tells seen ρ' (f a) (f' b)) :
    AgreeIf ok mute tells seen ρ' same (p >>= f) (p' >>= f') := by
  change AgreeIf ok mute tells seen ρ' same (p.bind f) (p'.bind f')
  induction hp with
  | ret h => exact hf _ _ h _
  | halt => exact .halt
  | get _ ih => exact .get ih
  | put hs hs' heq _ ih => exact .put hs hs' heq ih
  | call he _ ih => exact .call he ih
  | mute he he' _ ih => exact .mute he he' ih
  | tells hn ht => exact .tells hn (ht.bind f)

theorem Agree.bind {γ δ : Type} {ρ' : γ → δ → Prop} {p : Prog S E R α} {p' : Prog S E R β}
    {f : α → Prog S E R γ} {f' : β → Prog S E R δ} (hp : Agree ok mute tells seen ρ p p')
    (hf : ∀ a b, ρ a b → Agree ok mute tells seen ρ' (f a) (f' b)) :
    Agree ok mute tells seen ρ' (p >>= f) (p' >>= f') := fun same => (hp same).bind hf

theorem Agree.pure {a : α} {b : β} (h : ρ a b) :
    Agree ok mute tells seen ρ (Pure.pure a : Prog S E R α) (Pure.pure b : Prog S E R β) :=
  fun _ => .ret h

theorem Agree.halt {h : Halt} :
    Agree ok mute tells seen ρ (.halt h : Prog S E R α) (.halt h : Prog S E R β) := fun _ => .halt

theorem Agree.get {k : S → Prog S E R α} {k' : S → Prog S E R β}
    (h : ∀ s s', seen s → seen s' → Agree ok mute tells seen ρ (k s) (k' s')) :
    Agree ok mute tells seen ρ (.get k) (.get k') :=
  fun same => .get fun s s' hs hs' _ => h s s' hs hs' same

theorem Agree.call {e : E} {k : R e → Prog S E R α} {k' : R e → Prog S E R β} (he : ok e)
    (h : ∀ r, Agree ok mute tells seen ρ (k r) (k' r)) :
    Agree ok mute tells seen ρ (.call e k) (.call e k') :=
  fun _ => .call he h

theorem Agree.silent {e e' : E} {k : R e → Prog S E R α} {k' : R e' → Prog S E R β}
    (he : mute e) (he' : mute e') (h : ∀ r r', Agree ok mute tells seen ρ (k r) (k' r')) :
    Agree ok mute tells seen ρ (.call e k) (.call e' k') := fun _ => .mute he he' h

theorem Agree.read : Agree ok mute tells seen (fun s s' => seen s ∧ seen s')
    (Prog.read : Prog S E R S) Prog.read :=
  .get fun _ _ hs hs' => .pure ⟨hs, hs'⟩

theorem Agree.modify {f : S → S} (hf : ∀ s, seen s → seen (f s)) :
    Agree ok mute tells seen (fun _ _ => True) (Prog.modify f : Prog S E R Unit) (Prog.modify f) :=
  fun _ => .get fun _ _ hs hs' heq =>
    .put (hf _ hs) (hf _ hs') (fun h => congrArg f (heq h)) (.ret trivial)

theorem Agree.perform {e : E} (he : ok e) :
    Agree ok mute tells seen Eq (Prog.perform e : Prog S E R (R e)) (Prog.perform e) :=
  .call he fun _ => .pure rfl

/-- What two loops say. -/
def Ctl.Rel {X' ρ' : Type} (χ : X → X' → Prop) (ρ₀ : α → ρ' → Prop) : Ctl X α → Ctl X' ρ' → Prop
  | .next x, .next x' => χ x x'
  | .done r, .done r' => ρ₀ r r'
  | _, _ => False

theorem Agree.loop {X' : Type} (χ : X → X' → Prop) {body : X → Prog S E R (Ctl X α)}
    {body' : X' → Prog S E R (Ctl X' β)}
    (hbody : ∀ x x', χ x x' → Agree ok mute tells seen (Ctl.Rel χ ρ) (body x) (body' x'))
    (n : ℕ) {x : X} {x' : X'} (hx : χ x x') :
    Agree ok mute tells seen ρ (Prog.loop n body x) (Prog.loop n body' x') := by
  induction n generalizing x x' with
  | zero => exact .halt
  | succ n ih =>
    refine (hbody x x' hx).bind ?_
    rintro (y | r) (y' | r') h
    · exact ih h
    · exact h.elim
    · exact h.elim
    · exact .pure h

/-! ### A step of programs that agree -/

/-- Unless the next call tells more, they agree again at it. -/
theorem AgreeIf.settle {p : Prog S E R α} {p' : Prog S E R β}
    (h : AgreeIf ok mute tells seen ρ same p p') {s s' : S} (hs : seen s) (hs' : seen s')
    (heq : same → s = s') (htells : ∀ e, (p.settle s).1.call? = some e → tells e → same) :
    Agree ok mute tells seen ρ (p.settle s).1 (p'.settle s').1 ∧ seen (p.settle s).2 ∧
    seen (p'.settle s').2 := by
  induction h generalizing s s' with
  | ret h => exact ⟨.pure h, hs, hs'⟩
  | halt => exact ⟨.halt, hs, hs'⟩
  | get _ ih => exact ih s s' hs hs' heq hs hs' heq htells
  | put h h' heq' _ ih => exact ih h h' heq' htells
  | call he hk => exact ⟨.call he hk, hs, hs'⟩
  | mute he he' hk => exact ⟨.silent he he' hk, hs, hs'⟩
  | tells hn ht =>
    obtain ⟨e, he, hte⟩ := ht s hs
    exact absurd (htells e he hte) hn

theorem Agree.settle {p : Prog S E R α} {p' : Prog S E R β} (h : Agree ok mute tells seen ρ p p')
    {s : S} (hs : seen s) : Agree ok mute tells seen ρ (p.settle s).1 (p'.settle s).1 ∧
    seen (p.settle s).2 :=
  let ⟨hp, hs', _⟩ := (h True).settle hs hs (fun _ => rfl) fun _ _ _ => trivial
  ⟨hp, hs'⟩

theorem Agree.act {p : Prog S E R α} {p' : Prog S E R β} (h : Agree ok mute tells seen ρ p p')
    (f : Env E R σ) (w : σ) : Agree ok mute tells seen ρ (p.act f w).1 (p'.act f w).1 := by
  cases h True with
  | ret | halt | get | put => exact h
  | call _ hk => exact hk _
  | mute _ _ hk => exact hk _ _
  | tells hn => exact absurd trivial hn

theorem Agree.call? {p : Prog S E R α} {p' : Prog S E R β} (h : Agree ok mute tells seen ρ p p')
    {e : E} (he : p.call? = some e) : ok e ∨ mute e := by
  cases h True with
  | call hok => cases he; exact .inl hok
  | mute hm => cases he; exact .inr hm
  | tells hn => exact absurd trivial hn
  | _ => cases he

/-- Run alone, it leaves the memory as it is seen. -/
theorem AgreeIf.run {p : Prog S E R α} {p' : Prog S E R β}
    (h : AgreeIf ok mute tells seen ρ same p p') (hsame : same) (f : Env E R σ) {s : S}
    (hs : seen s) (w : σ) : seen (p.run f s w).mem := by
  induction h generalizing s w with
  | ret => exact hs
  | halt => exact hs
  | get _ ih => exact ih s s hs hs (fun _ => rfl) hsame hs w
  | put h _ _ _ ih => exact ih hsame h w
  | call _ _ ih => exact ih _ True trivial hs _
  | @mute _ e e' _ _ _ _ _ ih => exact ih _ (f w e').1 True trivial hs _
  | tells hn => exact absurd hsame hn

theorem Agree.run {p : Prog S E R α} {p' : Prog S E R β} (h : Agree ok mute tells seen ρ p p')
    (f : Env E R σ) {s : S} (hs : seen s) (w : σ) : seen (p.run f s w).mem :=
  (h True).run trivial f hs w

section Run

variable {oks : ι → E → Prop} {env : ι → Env E R σ} {room : S → Prop} {ρ : α → α → Prop}
  {c : Conf ι S E R σ α}

/-- Programs that agree with themselves from their first call on: each starts from the memory
the others have started from or from what these see, and goes on alike if it finds `room`, or none,
in both. -/
def Conf.Starts (oks : ι → E → Prop) (mute tells : E → Prop)
    (seen room : S → Prop) (ρ : α → α → Prop) (c : Conf ι S E R σ α) : Prop :=
  ∀ i s s', s = c.mem ∨ seen s → s' = c.mem ∨ seen s' → (room s ↔ room s') →
    Agree (oks i) mute tells seen ρ ((c.prog i).settle s).1 ((c.prog i).settle s').1 ∧
      seen ((c.prog i).settle s).2

/-- What holds after a schedule: the programs that have started agree with themselves, and the
others are as they were. -/
structure Conf.Begun (oks : ι → E → Prop) (mute tells : E → Prop)
    (seen : S → Prop) (ρ : α → α → Prop) (c : Conf ι S E R σ α) (sched : List ι)
    (d : Conf ι S E R σ α) : Prop where
  /-- The programs that have started. -/
  started : ∀ i ∈ sched, Agree (oks i) mute tells seen ρ (d.prog i) (d.prog i)
  /-- The others. -/
  others : ∀ i, i ∉ sched → d.prog i = c.prog i
  /-- The memory. -/
  mem : d.mem = c.mem ∨ seen d.mem
  /-- It is as they see it once one has started. -/
  mem_seen : sched ≠ [] → seen d.mem

variable [DecidableEq ι]

theorem Conf.Begun.settle (hc : c.Starts oks mute tells seen room ρ) {sched : List ι}
    {d : Conf ι S E R σ α} (h : c.Begun oks mute tells seen ρ sched d) (i : ι) :
    Agree (oks i) mute tells seen ρ ((d.prog i).settle d.mem).1 ((d.prog i).settle d.mem).1 ∧
      seen ((d.prog i).settle d.mem).2 := by
  by_cases hi : i ∈ sched
  · exact (h.started i hi).settle (h.mem_seen (List.ne_nil_of_mem hi))
  · rw [h.others i hi]
    exact hc i d.mem d.mem h.mem h.mem Iff.rfl

/-- In every run the programs that have started agree with themselves. -/
theorem Conf.Starts.run (hc : c.Starts oks mute tells seen room ρ) (sched : List ι) :
    c.Begun oks mute tells seen ρ sched (c.run env sched) := by
  induction sched using List.reverseRecOn with
  | nil => exact ⟨by simp, fun _ _ => rfl, .inl rfl, fun h => absurd rfl h⟩
  | append_singleton sched i ih =>
    obtain ⟨hp, hs⟩ := ih.settle hc i
    rw [Conf.run_concat]
    refine ⟨fun j hj => ?_, fun j hj => ?_, .inr hs, fun _ => hs⟩
    · by_cases hji : j = i
      · subst hji
        rw [Conf.step_self]
        exact hp.act _ _
      · rw [Conf.step_ne hji]
        exact ih.started j (by simpa [hji] using hj)
    · have hji : j ≠ i := fun h => hj (by simp [h])
      rw [Conf.step_ne hji]
      exact ih.others j fun h => hj (List.mem_append_left _ h)

theorem Conf.Starts.next? (hc : c.Starts oks mute tells seen room ρ)
    {sched : List ι} {i : ι} {e : E} (he : (c.run env sched).next? i = some e) : oks i e ∨ mute e :=
  ((hc.run sched).settle hc i).1.call? he

/-! ### Noninterference -/

/-- The environment is made of parts, one for each program: a call that is one's `own` is
answered from one's part, and changes no other; calls that tell nothing change none. -/
structure Separates (env : ι → Env E R σ) (part : ι → σ → P) (own : ι → E → Prop)
    (mute : E → Prop) : Prop where
  /-- The answer comes from one's own part. -/
  answer : ∀ i e w w', own i e → part i w = part i w' → (env i w e).1 = (env i w' e).1
  /-- And so does what is left of it. -/
  self : ∀ i e w w', own i e → part i w = part i w' → part i (env i w e).2 = part i (env i w' e).2
  /-- The others' parts are left alone. -/
  other : ∀ i j e w, j ≠ i → own i e → part j (env i w e).2 = part j w
  /-- All are left alone by a call that tells nothing. -/
  mute : ∀ i j e w, mute e → part j (env i w e).2 = part j w

variable {part : ι → σ → P} {own : ι → E → Prop}

omit [DecidableEq ι] in
/-- A step of one's own, from two states of the environment. -/
theorem Separates.act (h : Separates env part own mute) (hok : ∀ e, ok e → ¬ mute e)
    {p p' : Prog S E R α} (hp : Agree ok mute tells seen ρ p p') {i : ι} {w w' : σ}
    (hown : ∀ e, p.call? = some e → ¬ mute e → own i e) (hpart : part i w = part i w') :
    Agree ok mute tells seen ρ (p.act (env i) w).1 (p'.act (env i) w').1 ∧
      part i (p.act (env i) w).2 = part i (p'.act (env i) w').2 := by
  cases hp True with
  | ret | halt | get | put => exact ⟨hp, hpart⟩
  | @call _ e k k' he hk =>
    have ho := hown e rfl (hok e he)
    refine ⟨?_, h.self i e w w' ho hpart⟩
    simp only [Prog.act]
    rw [h.answer i e w w' ho hpart]
    exact hk _
  | mute he he' hk =>
    refine ⟨hk _ _, ?_⟩
    exact (h.mute i i _ w he).trans (hpart.trans (h.mute i i _ w' he').symm)
  | tells hn => exact absurd trivial hn

omit [DecidableEq ι] in
theorem Separates.act_other (h : Separates env part own mute) {p : Prog S E R α} {i j : ι} {w : σ}
    (hown : ∀ e, p.call? = some e → ¬ mute e → own j e) (hij : i ≠ j) :
    part i (p.act (env j) w).2 = part i w := by
  cases p with
  | call e k =>
    by_cases hm : mute e
    · exact h.mute j i e w hm
    · exact h.other j i e w hij (hown e rfl hm)
  | _ => rfl

/-- A step of program `i`, in the run and alone: it starts where there is room in both or in none,
and where it makes a call that tells more no other has started yet. -/
theorem Conf.Starts.settle_alone (hc : c.Starts oks mute tells seen room ρ) {sched : List ι} {i : ι}
    (hp : i ∈ sched → Agree (oks i) mute tells seen ρ ((c.run env sched).prog i)
      ((c.run env (sched.filter (· = i))).prog i))
    (hroom : i ∉ sched → (room (c.run env sched).mem ↔ room c.mem))
    (htells : ∀ e, (c.run env sched).next? i = some e → tells e → ∀ j ∈ sched, j = i) :
    Agree (oks i) mute tells seen ρ (((c.run env sched).prog i).settle (c.run env sched).mem).1
      (((c.run env (sched.filter (· = i))).prog i).settle
      (c.run env (sched.filter (· = i))).mem).1 := by
  have hrun : c.Begun oks mute tells seen ρ sched (c.run env sched) := hc.run sched
  by_cases hi : i ∈ sched
  · have hi' : i ∈ sched.filter (· = i) := by simpa using hi
    refine ((hp hi ((c.run env sched).mem = (c.run env (sched.filter (· = i))).mem)).settle
      (hrun.mem_seen (List.ne_nil_of_mem hi)) ((hc.run _).mem_seen (List.ne_nil_of_mem hi')) id
      fun e he hte => ?_).1
    rw [List.filter_eq_self.mpr fun j hj => decide_eq_true (htells e he hte j hj)]
  · have halone : sched.filter (· = i) = [] := by
      rw [List.filter_eq_nil_iff]
      intro j hj hji
      exact hi (of_decide_eq_true hji ▸ hj)
    rw [halone, hrun.others i hi]
    exact (hc i _ _ hrun.mem (.inl rfl) (hroom hi)).1

/-- Noninterference. In a run in which every program makes calls of its own only, starts where
it finds room if there was some at first, and tells more than is seen only before another has
started, each finds its part of the environment as it would alone. -/
theorem noninterference (h : Separates env part own mute) (hok : ∀ i e, oks i e → ¬ mute e)
    (hc : c.Starts oks mute tells seen room ρ) (sched : List ι)
    (hown : ∀ pre i e, pre ++ [i] <+: sched → (c.run env pre).next? i = some e → ¬ mute e → own i e)
    (hroom : ∀ pre i, pre ++ [i] <+: sched → i ∉ pre → (room (c.run env pre).mem ↔ room c.mem))
    (htells : ∀ pre i e, pre ++ [i] <+: sched → (c.run env pre).next? i = some e →
      tells e → ∀ j ∈ pre, j = i)
    (i : ι) : part i (c.run env sched).env = part i (c.run env (sched.filter (· = i))).env := by
  suffices (i ∈ sched → Agree (oks i) mute tells seen ρ ((c.run env sched).prog i)
      ((c.run env (sched.filter (· = i))).prog i)) ∧
      part i (c.run env sched).env = part i (c.run env (sched.filter (· = i))).env from this.2
  induction sched using List.reverseRecOn with
  | nil => exact ⟨by simp, rfl⟩
  | append_singleton sched j ih =>
    have hpre {pre : List ι} (hpre : pre <+: sched) : pre <+: sched ++ [j] :=
      hpre.trans (List.prefix_append ..)
    obtain ⟨hp, hpart⟩ :=
      ih (fun pre i e h => hown pre i e (hpre h)) (fun pre i h => hroom pre i (hpre h))
      (fun pre i e h => htells pre i e (hpre h))
    have hj : ∀ e, (c.run env sched).next? j = some e → ¬ mute e → own j e :=
      fun e => hown sched j e (List.prefix_refl _)
    rw [List.filter_append, Conf.run_concat]
    by_cases hij : j = i
    · subst hij
      have hp' := hc.settle_alone hp (hroom sched j (List.prefix_refl _)) fun e =>
        htells sched j e (List.prefix_refl _)
      have hone : [j].filter (· = j) = [j] := by simp
      rw [hone, Conf.run_concat, Conf.step_self, Conf.step_self]
      obtain ⟨hact, hpart'⟩ := h.act (hok j) hp' hj hpart
      exact ⟨fun _ => hact, hpart'⟩
    · have hnone : [j].filter (· = i) = [] := by simp [hij]
      rw [hnone, List.append_nil, Conf.step_ne (Ne.symm hij)]
      refine ⟨fun hi => hp ?_, (h.act_other hj (Ne.symm hij)).trans hpart⟩
      rcases List.mem_append.mp hi with hi | hi
      · exact hi
      · exact absurd (List.mem_singleton.mp hi).symm hij

end Run

end Agree

end Resumption
