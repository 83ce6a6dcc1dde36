import Mathlib.Data.List.Basic
import Mathlib.Data.Nat.Notation

/-!
# Runs of operations

A state machine is given a list of operations, and does one after the other. What is said of each
step is said of a run.

## What is proved

* `Runs.Always.mono` — from an invariant: what holds of every step of a run.
-/

namespace Runs

variable {S O : Type*} {step : S → O → S}

/-- Every step of the run is as `P` says. -/
def Always (step : S → O → S) (P : S → O → Prop) : S → List O → Prop
  | _, [] => True
  | s, o :: os => P s o ∧ Always step P (step s o) os

/-- What every step is, if an invariant is kept: by the steps that are as `P` says, which are as `Q`
says. -/
theorem Always.mono {P Q : S → O → Prop} (I : S → Prop)
    (h : ∀ s o, I s → P s o → Q s o ∧ I (step s o)) {s : S} {os : List O} (hs : I s)
    (hP : Always step P s os) : Always step Q s os := by
  induction os generalizing s with
  | nil => trivial
  | cons o os ih =>
    obtain ⟨hQ, hI⟩ := h s o hs hP.1
    exact ⟨hQ, ih hI hP.2⟩

theorem Always.and {P Q : S → O → Prop} {s : S} {os : List O} (hP : Always step P s os)
    (hQ : Always step Q s os) : Always step (fun s o => P s o ∧ Q s o) s os := by
  induction os generalizing s with
  | nil => trivial
  | cons o os ih => exact ⟨⟨hP.1, hQ.1⟩, ih hP.2 hQ.2⟩

theorem place_of_prefix {pre os : List O} {o : O} (h : pre ++ [o] <+: os) :
    pre.length < os.length ∧ os[pre.length]? = some o ∧ os.take pre.length = pre := by
  obtain ⟨rest, rfl⟩ := h
  simp

end Runs
