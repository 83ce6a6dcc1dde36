import Mathlib.Data.Nat.Notation

/-!
# Tries

Steps that may fail, and are tried again. A step says whether it succeeded and changes a state
either way; how often it fails from a state is thus up to it.

## What is proved

* `within_of_ok`, `within_of_fail` — a step is left when it succeeds, and a try is used up when not.
* `through_eq_none_of_le` — when a step gives up, no later one is reached.
* `through_of_ok` — steps that never fail are passed at the first try.
-/

namespace Tries

variable {σ : Type}

/-- The state after the first of at most `n` tries that succeeds; none when they all fail. -/
def within (step : σ → Bool × σ) : ℕ → σ → Option σ
  | 0, _ => none
  | n + 1, b => if (step b).1 then some (step b).2 else within step n (step b).2

/-- The state after the steps before step `i`, each with at most `n` tries; none when one of them
gives up. -/
def through (steps : ℕ → σ → Bool × σ) (n : ℕ) : ℕ → σ → Option σ
  | 0, b => some b
  | i + 1, b => (through steps n i b).bind (within (steps i) n)

section Within

variable {step : σ → Bool × σ} {n : ℕ} {b : σ}

theorem within_of_ok (h : (step b).1 = true) : within step (n + 1) b = some (step b).2 := by
  rw [within, if_pos h]

theorem within_of_fail (h : (step b).1 = false) :
    within step (n + 1) b = within step n (step b).2 := by
  rw [within, h, if_neg Bool.false_ne_true]

end Within

section Through

variable {steps : ℕ → σ → Bool × σ} {n i j : ℕ} {b b' : σ}

theorem through_succ (h : through steps n i b = some b') :
    through steps n (i + 1) b = within (steps i) n b' := by
  rw [through, h, Option.bind_some]

/-- When a step gives up, no later one is reached. -/
theorem through_eq_none_of_le (h : through steps n i b = none) (hij : i ≤ j) :
    through steps n j b = none := by
  induction hij with
  | refl => exact h
  | step _ ih => rw [through, ih, Option.bind_none]

theorem through_of_ok (h : ∀ i b, (steps i b).1 = true) (b : σ) (i : ℕ) :
    through steps (n + 1) i b ≠ none := by
  induction i with
  | zero => exact Option.some_ne_none b
  | succ i ih =>
    obtain ⟨b', hb'⟩ := Option.ne_none_iff_exists'.mp ih
    rw [through_succ hb', within_of_ok (h i b')]
    exact Option.some_ne_none _

end Through

end Tries
