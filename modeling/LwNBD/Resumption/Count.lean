import LwNBD.Resumption.Rules
import Mathlib.Data.Int.Notation

/-!
# Counted loops

A loop over `j, j + 1, …` whose body may leave it. It is a body itself: it says to go on when the
count is reached, and to leave when one of its rounds did.

The calls of such a loop often have a status, and a status other than `0` ends the loop, and what
the loop is part of. Then a run stops at the first call that fails, with the status of that call.

## The model

* `Prog.count` — a counted loop.
* `Clean`, `Stops` — no call of a run failed; a run stopped at the first that did.

## What is proved

* `wp_count` — the invariant rule, with the count in the invariant.
* `Clean.stops_append` — what stops after calls that did not fail stops where it stops.
-/

namespace Resumption

variable {S E : Type} {R : E → Type} {X ρ σ : Type}

/-- The rounds `j`, `j + 1`, … of a counted loop, `n` of them. -/
def Prog.count (body : ℕ → X → Prog S E R (Ctl X ρ)) : ℕ → ℕ → X → Prog S E R (Ctl X ρ)
  | 0, _, x => pure (.next x)
  | n + 1, j, x => body j x >>= fun
    | .next x' => Prog.count body n (j + 1) x'
    | .done r => pure (.done r)

/-- What is to be shown of a round, after calls `h` and then `h'`. -/
theorem Post.round_after (Q : Post S E R σ ρ) (I : X → S → σ → List (Event E R) → Prop)
    (h h' : List (Event E R)) : (Q.round I h).after h' = Q.round I (h ++ h') := by
  funext o s w t
  rcases o with (x | r) | e
  all_goals simp

/-- The rule for counted loops: what each round keeps, as it counts on, holds when the count is
reached. -/
theorem wp_count (env : Env E R σ) {body : ℕ → X → Prog S E R (Ctl X ρ)}
    {Q : Post S E R σ ρ} {N : ℕ} (I : ℕ → X → S → σ → List (Event E R) → Prop)
    (hbody : ∀ j x s w h, j < N → I j x s w h → wp env (body j x) (Q.round (I (j + 1)) h) s w)
    (n j : ℕ) (hj : j + n = N) {x : X} {s : S} {w : σ} {h : List (Event E R)} (hI : I j x s w h) :
    wp env (Prog.count body n j x) (Q.round (I N) h) s w := by
  induction n generalizing j x s w h with
  | zero =>
    obtain rfl : j = N := hj
    rw [Prog.count, wp_pure, Post.round_next, List.append_nil]
    exact hI
  | succ n ih =>
    rw [Prog.count, wp_bind]
    refine wp_mono env ?_ (hbody j x s w h (by omega) hI)
    rintro ((x' | r) | e) s' w' t hQ
    · rw [Post.seq_ret, Post.round_after]
      exact ih (j + 1) (by omega) hQ
    · rw [Post.seq_ret, wp_pure, Post.round_after, Post.round_done, List.append_nil]
      exact hQ
    · exact hQ

/-! ### The first call that fails -/

section Status

variable (status : Event E R → ℤ)

/-- No call failed. -/
def Clean (t : List (Event E R)) : Prop := ∀ e ∈ t, status e = 0

/-- The run stopped at the first call that failed, with its status; with `0` if none did. -/
def Stops (r : ℤ) (t : List (Event E R)) : Prop :=
  (Clean status t ∧ r = 0) ∨ ∃ pre e, t = pre ++ [e] ∧ Clean status pre ∧ status e = r ∧ r ≠ 0

variable {status} {h t : List (Event E R)} {e : Event E R} {r : ℤ}

theorem Clean.nil : Clean status [] := by simp [Clean]

theorem Clean.append (hh : Clean status h) (ht : Clean status t) : Clean status (h ++ t) := by
  intro e he
  rcases List.mem_append.mp he with he | he
  · exact hh e he
  · exact ht e he

theorem Clean.concat (hh : Clean status h) (he : status e = 0) : Clean status (h ++ [e]) :=
  hh.append (by simpa [Clean] using he)

theorem Clean.stops (hh : Clean status h) : Stops status 0 h := .inl ⟨hh, rfl⟩

theorem Clean.stops_concat (hh : Clean status h) : Stops status (status e) (h ++ [e]) := by
  by_cases he : status e = 0
  · rw [he]
    exact (hh.concat he).stops
  · exact .inr ⟨h, e, rfl, hh, rfl, he⟩

/-- What stops after calls that did not fail stops where it stops. -/
theorem Clean.stops_append (hh : Clean status h) (ht : Stops status r t) :
    Stops status r (h ++ t) := by
  rcases ht with ⟨hc, rfl⟩ | ⟨pre, e, rfl, hpre, he, hr⟩
  · exact (hh.append hc).stops
  · exact .inr ⟨h ++ pre, e, by rw [List.append_assoc], hh.append hpre, he, hr⟩

theorem Stops.eq_zero (ht : Stops status r t) (hc : Clean status t) : r = 0 := by
  rcases ht with ⟨-, hr⟩ | ⟨pre, e, rfl, -, he, -⟩
  · exact hr
  · exact he ▸ hc e (by simp)

theorem Stops.clean (ht : Stops status r t) (hr : r = 0) : Clean status t := by
  rcases ht with ⟨hc, -⟩ | ⟨pre, e, -, -, -, hne⟩
  · exact hc
  · exact absurd hr hne

/-- Where no call fails, none is found to have failed. -/
theorem clean_run {α : Type} {env : Env E R σ} (hanswer : ∀ w e, status ⟨e, (env w e).1⟩ = 0)
    (p : Prog S E R α) (s : S) (w : σ) : Clean status (p.run env s w).trace := by
  induction p generalizing s w with
  | ret a => exact .nil
  | halt w => exact .nil
  | get k ih => exact ih s s w
  | put s' k ih => exact ih s' w
  | call e k ih =>
    intro e' he'
    rcases List.mem_cons.mp he' with rfl | he'
    · exact hanswer w e
    · exact ih _ s _ e' he'

end Status

end Resumption
