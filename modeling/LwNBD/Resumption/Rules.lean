import LwNBD.Resumption.Prog

/-!
# Rules for runs

The rules by which a property of a run is proved from the program's text. `wp env p Q`
holds of a memory and an environment when the run of `p` from them ends as `Q` says;
`Q` sees how the run ended, the memory, the environment and the calls made. It is
total: a `Q` that is false of `.halt` proves that the program returns.

## What is proved

* `wp_bind` — a sequence is verified part by part, the calls of the first part being
  before those of the second.
* `wp_loop` and `wp_loop_total` — a property that holds on entry to a loop and is
  kept by its body holds when the loop is left; with a measure that the body lowers,
  the loop is left before its fuel runs out.
* `reaches_inv` — what holds on entry and is kept by every round of a loop holds
  whenever control is back at its head, after any number of rounds (`Reaches`).
* `mem_trace_loop`, `reaches_of_loop` — a loop makes the calls of its rounds, and returns in one
  of them.
-/

namespace Resumption

open Relation

variable {S E : Type} {R : E → Type} {α β X ρ σ : Type}

/-- The calls that were made, without their answers. -/
def calls (h : List (Event E R)) : List E := h.map Sigma.fst

@[simp] theorem calls_nil : calls ([] : List (Event E R)) = [] := rfl

@[simp] theorem calls_cons (e : Event E R) (h : List (Event E R)) :
    calls (e :: h) = e.1 :: calls h := rfl

@[simp] theorem calls_append (h h' : List (Event E R)) : calls (h ++ h') = calls h ++ calls h' :=
  List.map_append

/-- What holds of the calls made before and of those made after holds of all. -/
theorem calls_forall_append {P : E → Prop} {h t : List (Event E R)} (hh : ∀ e ∈ calls h, P e)
    (ht : ∀ e ∈ calls t, P e) : ∀ e ∈ calls (h ++ t), P e := by
  rw [calls_append]
  intro e he
  rcases List.mem_append.mp he with he | he
  · exact hh e he
  · exact ht e he

/-! ### Weakest preconditions -/

/-- What a run may end in: how it ended, the memory, the environment, the calls. -/
abbrev Post (S E : Type) (R : E → Type) (σ α : Type) :=
  Outcome α → S → σ → List (Event E R) → Prop

/-- The run of `p` ends as `Q` says. -/
def wp (env : Env E R σ) (p : Prog S E R α) (Q : Post S E R σ α) (s : S) (w : σ) : Prop :=
  Q (p.run env s w).out (p.run env s w).mem (p.run env s w).env (p.run env s w).trace

/-- Go on after a first part with calls `h`: if it returned, as the rest says. -/
def Post.seq (Q : Post S E R σ β) (f : α → List (Event E R) → S → σ → Prop) : Post S E R σ α :=
  fun o s w h => match o with
    | .ret a => f a h s w
    | .halt e => Q (.halt e) s w h

/-- What is to be shown after calls `h` were made already. -/
def Post.after (Q : Post S E R σ α) (h : List (Event E R)) : Post S E R σ α :=
  fun o s w h' => Q o s w (h ++ h')

section Rules

variable (env : Env E R σ)

@[simp] theorem wp_pure (a : α) (Q : Post S E R σ α) (s : S) (w : σ) :
    wp env (pure a) Q s w ↔ Q (.ret a) s w [] := Iff.rfl

@[simp] theorem wp_halt (e : Halt) (Q : Post S E R σ α) (s : S) (w : σ) :
    wp env (.halt e) Q s w ↔ Q (.halt e) s w [] := Iff.rfl

@[simp] theorem wp_read (Q : Post S E R σ S) (s : S) (w : σ) :
    wp env Prog.read Q s w ↔ Q (.ret s) s w [] := Iff.rfl

@[simp] theorem wp_modify (f : S → S) (Q : Post S E R σ Unit) (s : S) (w : σ) :
    wp env (Prog.modify f) Q s w ↔ Q (.ret ()) (f s) w [] := Iff.rfl

@[simp] theorem wp_perform (e : E) (Q : Post S E R σ (R e)) (s : S) (w : σ) :
    wp env (Prog.perform e) Q s w ↔
      Q (.ret (env w e).1) s (env w e).2 [⟨e, (env w e).1⟩] := Iff.rfl

theorem wp_bind (p : Prog S E R α) (f : α → Prog S E R β) (Q : Post S E R σ β) (s : S) (w : σ) :
    wp env (p >>= f) Q s w ↔
      wp env p (Q.seq fun a h s' w' => wp env (f a) (Q.after h) s' w') s w := by
  unfold wp
  rw [Prog.run_bind]
  unfold Result.andThen Post.seq Post.after
  cases (p.run env s w).out <;> rfl

theorem wp_mono {p : Prog S E R α} {Q Q' : Post S E R σ α} (hQ : ∀ o s w h, Q o s w h → Q' o s w h)
    {s : S} {w : σ} (h : wp env p Q s w) : wp env p Q' s w := hQ _ _ _ _ h

theorem wp_of_forall {p : Prog S E R α} {Q : Post S E R σ α} (hQ : ∀ o s w h, Q o s w h) {s : S}
    {w : σ} : wp env p Q s w := hQ _ _ _ _

theorem wp_and {env : Env E R σ} {p : Prog S E R α} {Q Q' : Post S E R σ α} {s : S} {w : σ}
    (h : wp env p Q s w) (h' : wp env p Q' s w) :
    wp env p (fun o s' w' t => Q o s' w' t ∧ Q' o s' w' t) s w :=
  ⟨h, h'⟩

theorem wp_run (p : Prog S E R α) (s : S) (w : σ) :
    wp env p (fun o s' w' t => p.run env s w = ⟨o, s', w', t⟩) s w := rfl

@[simp] theorem Post.seq_ret (Q : Post S E R σ β) (f : α → List (Event E R) → S → σ → Prop) (a : α)
    (s : S) (w : σ) (h : List (Event E R)) : Q.seq f (.ret a) s w h = f a h s w := rfl

@[simp] theorem Post.seq_halt (Q : Post S E R σ β) (f : α → List (Event E R) → S → σ → Prop)
    (e : Halt) (s : S) (w : σ) (h : List (Event E R)) :
    Q.seq f (.halt e) s w h = Q (.halt e) s w h :=
  rfl

@[simp] theorem Post.after_apply (Q : Post S E R σ α) (h h' : List (Event E R)) (o : Outcome α)
    (s : S) (w : σ) : Q.after h o s w h' = Q o s w (h ++ h') := rfl

@[simp] theorem Post.after_nil (Q : Post S E R σ α) : Q.after [] = Q := rfl

@[simp] theorem Post.after_after (Q : Post S E R σ α) (h h' : List (Event E R)) :
    (Q.after h).after h' = Q.after (h ++ h') := by
  funext o s w h''
  simp

/-! ### Loops -/

/-- What is to be shown of one round of a loop that has made calls `h` already: `I` when
it goes round again, `Q` when it is left. -/
def Post.round (Q : Post S E R σ ρ) (I : X → S → σ → List (Event E R) → Prop)
    (h : List (Event E R)) : Post S E R σ (Ctl X ρ) := fun o s w h' =>
  match o with
  | .ret (.next x) => I x s w (h ++ h')
  | .ret (.done r) => Q (.ret r) s w (h ++ h')
  | .halt e => Q (.halt e) s w (h ++ h')

@[simp] theorem Post.round_next (Q : Post S E R σ ρ) (I : X → S → σ → List (Event E R) → Prop)
    (h h' : List (Event E R)) (x : X) (s : S) (w : σ) :
    Q.round I h (.ret (.next x)) s w h' = I x s w (h ++ h') := rfl

@[simp] theorem Post.round_done (Q : Post S E R σ ρ) (I : X → S → σ → List (Event E R) → Prop)
    (h h' : List (Event E R)) (r : ρ) (s : S) (w : σ) :
    Q.round I h (.ret (.done r)) s w h' = Q (.ret r) s w (h ++ h') := rfl

@[simp] theorem Post.round_halt (Q : Post S E R σ ρ) (I : X → S → σ → List (Event E R) → Prop)
    (h h' : List (Event E R)) (e : Halt) (s : S) (w : σ) :
    Q.round I h (.halt e) s w h' = Q (.halt e) s w (h ++ h') := rfl

theorem wp_loop_succ {n : ℕ} {body : X → Prog S E R (Ctl X ρ)} {x : X} {Q : Post S E R σ ρ} {s : S}
    {w : σ} : wp env (Prog.loop (n + 1) body x) Q s w ↔
      wp env (body x) (Q.round (fun x' s' w' h => wp env (Prog.loop n body x') (Q.after h) s' w')
      [])
        s w := by
  rw [Prog.loop, wp_bind]
  unfold wp Post.seq Post.round
  rcases ((body x).run env s w).out with (x' | r) | e <;> simp

/-- What is true of a loop however its first round goes on is true of the loop. -/
theorem wp_loop_first {n : ℕ} {body : X → Prog S E R (Ctl X ρ)} {x : X} {Q : Post S E R σ ρ} {s : S}
    {w : σ} (h : wp env (body x) (fun _ _ _ h => ∀ o s w h', Q o s w (h ++ h')) s w) :
    wp env (Prog.loop (n + 1) body x) Q s w := by
  rw [wp_loop_succ]
  refine wp_mono env ?_ h
  rintro ((x' | r) | e) s' w' h hQ
  · exact wp_of_forall env fun o s'' w'' h' => hQ o s'' w'' h'
  · simpa using hQ (.ret r) s' w' []
  · simpa using hQ (.halt e) s' w' []

/-- Partial correctness of a loop: what every round keeps holds when it is left. -/
theorem wp_loop {body : X → Prog S E R (Ctl X ρ)} {Q : Post S E R σ ρ}
    (I : X → S → σ → List (Event E R) → Prop)
    (hfuel : ∀ x s w h, I x s w h → Q (.halt .fuel) s w h)
    (hbody : ∀ x s w h, I x s w h → wp env (body x) (Q.round I h) s w) (n : ℕ) :
    ∀ x s w h, I x s w h → wp env (Prog.loop n body x) (Q.after h) s w := by
  induction n with
  | zero => intro x s w h hI; simpa [Prog.loop] using hfuel x s w h hI
  | succ n ih =>
    intro x s w h hI
    rw [wp_loop_succ]
    refine wp_mono env ?_ (hbody x s w h hI)
    rintro ((x' | r) | e) s' w' h' hQ
    · rw [Post.round_next, Post.after_after]
      exact ih x' s' w' (h ++ h') hQ
    · exact hQ
    · exact hQ

/-- Total correctness of a loop: with a measure that every round lowers, the loop is
left before its fuel runs out. -/
theorem wp_loop_total {body : X → Prog S E R (Ctl X ρ)} {Q : Post S E R σ ρ}
    (I : X → S → σ → List (Event E R) → Prop) (m : X → S → σ → ℕ)
    (hbody : ∀ x s w h, I x s w h →
      wp env (body x) (Q.round (fun x' s' w' h' => I x' s' w' h' ∧ m x' s' w' < m x s w) h) s w)
    (n : ℕ) :
    ∀ x s w h, m x s w < n → I x s w h → wp env (Prog.loop n body x) (Q.after h) s w := by
  induction n with
  | zero => intro x s w h hm; exact absurd hm (Nat.not_lt_zero _)
  | succ n ih =>
    intro x s w h hm hI
    rw [wp_loop_succ]
    refine wp_mono env ?_ (hbody x s w h hI)
    rintro ((x' | r) | e) s' w' h' hQ
    · rw [Post.round_next, Post.after_after]
      exact ih x' s' w' (h ++ h') (by have := hQ.2; omega) hQ.1
    · exact hQ
    · exact hQ

/-! ### The rounds of a loop -/

/-- Control at the head of a loop: the loop's variables, the memory, the environment. -/
structure Head (X S σ : Type) where
  /-- The loop's variables. -/
  x : X
  /-- The memory. -/
  mem : S
  /-- The environment. -/
  env : σ

/-- The run of the body from a head. -/
def Head.round (body : X → Prog S E R (Ctl X ρ)) (c : Head X S σ) : Result S E R σ (Ctl X ρ) :=
  (body c.x).run env c.mem c.env

/-- Control is back at the head, in `c'`, after the round from `c`. -/
def Round (body : X → Prog S E R (Ctl X ρ)) (c c' : Head X S σ) : Prop :=
  (c.round env body).out = .ret (.next c'.x) ∧ (c.round env body).mem = c'.mem ∧
    (c.round env body).env = c'.env

/-- Control is back at the head, in `c'`, after any number of rounds, each from a head of
which `ok` holds. -/
def Reaches (body : X → Prog S E R (Ctl X ρ)) (ok : Head X S σ → Prop) :
    Head X S σ → Head X S σ → Prop := ReflTransGen fun c c' => ok c ∧ Round env body c c'

/-- The head after the round from `c`, if the loop goes round again. -/
def Head.next? (body : X → Prog S E R (Ctl X ρ)) (c : Head X S σ) : Option (Head X S σ) :=
  match (c.round env body).out with
  | .ret (.next x) => some ⟨x, (c.round env body).mem, (c.round env body).env⟩
  | _ => none

theorem Head.round_next? {body : X → Prog S E R (Ctl X ρ)} {c c' : Head X S σ}
    (h : c.next? env body = some c') : Round env body c c' := by
  unfold Head.next? at h
  split at h
  case h_1 x ho => cases h; exact ⟨ho, rfl, rfl⟩
  case h_2 => cases h

/-- The head after `n` rounds, or the last one before the loop ends. -/
def Head.rounds (body : X → Prog S E R (Ctl X ρ)) : ℕ → Head X S σ → Head X S σ
  | 0, c => c
  | n + 1, c => match c.next? env body with
    | some c' => c'.rounds body n
    | none => c

theorem Head.reaches_rounds {body : X → Prog S E R (Ctl X ρ)} (n : ℕ) (c : Head X S σ) :
    Reaches env body (fun _ => True) c (c.rounds env body n) := by
  induction n generalizing c with
  | zero => exact .refl
  | succ n ih =>
    unfold Head.rounds
    cases hc : c.next? env body with
    | none => exact .refl
    | some c' => exact .head ⟨trivial, Head.round_next? env hc⟩ (ih c')

variable {env} in
/-- If the loop ends after `k` rounds, the heads reached are those of the first `k` rounds. -/
theorem Reaches.exists_rounds {body : X → Prog S E R (Ctl X ρ)} {ok : Head X S σ → Prop}
    {k : ℕ} {c c' : Head X S σ} (h : Reaches env body ok c c')
    (hk : (c.rounds env body k).next? env body = none) : ∃ n ≤ k, c' = c.rounds env body n := by
  have hnext {c₁ : Head X S σ} (hr : Round env body c c₁) : c.next? env body = some c₁ := by
    obtain ⟨ho, hs, hw⟩ := hr
    rw [Head.next?, ho, hs, hw]
  induction k generalizing c with
  | zero =>
    rcases ReflTransGen.cases_head h with rfl | ⟨c₁, ⟨-, hr⟩, -⟩
    · exact ⟨0, Nat.le_refl 0, rfl⟩
    · cases hk.symm.trans (hnext hr)
  | succ k ih =>
    rcases ReflTransGen.cases_head h with rfl | ⟨c₁, ⟨-, hr⟩, hrest⟩
    · exact ⟨0, Nat.zero_le _, rfl⟩
    · have hrounds (n : ℕ) : c.rounds env body (n + 1) = c₁.rounds env body n := by
        rw [Head.rounds, hnext hr]
      rw [hrounds] at hk
      obtain ⟨n, hn, rfl⟩ := ih hrest hk fun hr => by
        obtain ⟨ho, hs, hw⟩ := hr
        rw [Head.next?, ho, hs, hw]
      exact ⟨n + 1, Nat.succ_le_succ hn, (hrounds n).symm⟩

/-- What every round keeps holds at the head, after any number of rounds. -/
theorem reaches_inv {body : X → Prog S E R (Ctl X ρ)} {ok : Head X S σ → Prop}
    (I : X → S → σ → Prop)
    (hI : ∀ x s w, ok ⟨x, s, w⟩ → I x s w →
      wp env (body x) (fun o s' w' _ => ∀ x', o = .ret (.next x') → I x' s' w') s w)
    {c c' : Head X S σ} (h : Reaches env body ok c c') (hc : I c.x c.mem c.env) :
    I c'.x c'.mem c'.env := by
  induction h with
  | refl => exact hc
  | tail _ hr ih =>
    obtain ⟨hok, ho, hs, hw⟩ := hr
    rw [← hs, ← hw]
    exact hI _ _ _ hok ih _ ho

/-- Every call of a loop is a call of one of its rounds. -/
theorem mem_trace_loop {body : X → Prog S E R (Ctl X ρ)} {n : ℕ} {e : Event E R} :
    ∀ {x : X} {s : S} {w : σ}, e ∈ ((Prog.loop n body x).run env s w).trace →
      ∃ c : Head X S σ, Reaches env body (fun _ => True) ⟨x, s, w⟩ c ∧
        e ∈ (c.round env body).trace := by
  induction n with
  | zero => intro x s w h; simp [Prog.loop] at h
  | succ n ih =>
    intro x s w h
    rw [Prog.loop, Prog.run_bind, Result.andThen] at h
    cases ho : ((body x).run env s w).out with
    | halt e => rw [ho] at h; exact ⟨⟨x, s, w⟩, .refl, h⟩
    | ret r =>
      rw [ho] at h
      rcases List.mem_append.mp h with h | h
      · exact ⟨⟨x, s, w⟩, .refl, h⟩
      · cases r with
        | done r => simp at h
        | next x' =>
          obtain ⟨c, hc, he⟩ := ih h
          have hr : Round env body ⟨x, s, w⟩
              ⟨x', ((body x).run env s w).mem, ((body x).run env s w).env⟩ := ⟨ho, rfl, rfl⟩
          exact ⟨c, .head ⟨trivial, hr⟩ hc, he⟩

/-- A loop that returns does so in the round from a head that is reached. -/
theorem reaches_of_loop {body : X → Prog S E R (Ctl X ρ)} {n : ℕ} {c : Head X S σ} {r : ρ}
    (h : ((Prog.loop n body c.x).run env c.mem c.env).out = .ret r) :
    ∃ c', Reaches env body (fun _ => True) c c' ∧ (c'.round env body).out = .ret (.done r) := by
  refine wp_loop env (Q := fun o _ _ _ => o = .ret r → ∃ c', Reaches env body (fun _ => True) c c' ∧
      (c'.round env body).out = .ret (.done r))
    (fun x s w _ => Reaches env body (fun _ => True) c ⟨x, s, w⟩) (by simp) ?_ n c.x
      c.mem c.env [] .refl h
  intro x s w h hc
  unfold wp
  rcases ho : ((body x).run env s w).out with (x' | r') | e
  · exact hc.tail ⟨trivial, ho, rfl, rfl⟩
  · rintro ⟨⟩
    exact ⟨⟨x, s, w⟩, hc, ho⟩
  · simp

/-- A loop returns in the round from a head that is reached, if its fuel does not run out before,
and leaves what that round leaves. -/
theorem loop_of_reaches {body : X → Prog S E R (Ctl X ρ)} {c c' : Head X S σ} {r : ρ}
    (hc : Reaches env body (fun _ => True) c c') (hr : (c'.round env body).out = .ret (.done r))
    (n : ℕ) (hfuel : ((Prog.loop n body c.x).run env c.mem c.env).out ≠ .halt .fuel) :
    let x := (Prog.loop n body c.x).run env c.mem c.env
    x.out = .ret r ∧ x.mem = (c'.round env body).mem ∧ x.env = (c'.round env body).env := by
  induction hc using Relation.ReflTransGen.head_induction_on generalizing n with
  | refl =>
    cases n with
    | zero => exact absurd rfl hfuel
    | succ n =>
      rw [Head.round] at hr ⊢
      rw [Prog.loop, Prog.run_bind, Result.andThen, hr]
      exact ⟨rfl, rfl, rfl⟩
  | head hr₁ _ ih =>
    obtain ⟨-, ho, hs, hw⟩ := hr₁
    cases n with
    | zero => exact absurd rfl hfuel
    | succ n =>
      rw [Head.round] at ho hs hw
      rw [Prog.loop, Prog.run_bind, Result.andThen, ho, hs, hw] at hfuel ⊢
      exact ih n hfuel

end Rules

end Resumption
