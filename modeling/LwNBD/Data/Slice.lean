import Mathlib.Algebra.Ring.Nat
import Mathlib.Data.Nat.Notation
import Mathlib.Data.List.Basic

/-!
# Slices

Reading and replacing a stretch of a string: `slice l i n` is the `n` items of `l`
from index `i`, and `overwrite l i d` is `l` with the items from index `i` replaced by
those of `d`. Ranges one after the other are `windows`.
-/

namespace List

variable {α : Type*}

/-- The `n` items from index `i`. -/
def slice (l : List α) (i n : ℕ) : List α := (l.drop i).take n

/-- The string with the items from index `i` replaced by those of `d`. -/
def overwrite (l : List α) (i : ℕ) (d : List α) : List α := l.take i ++ d ++ l.drop (i + d.length)

theorem length_slice {l : List α} {i n : ℕ} (h : i + n ≤ l.length) : (l.slice i n).length = n := by
  simp [slice]; omega

@[simp] theorem slice_zero_right (l : List α) (i : ℕ) : l.slice i 0 = [] := rfl

theorem slice_append_slice (l : List α) (i m n : ℕ) :
    l.slice i m ++ l.slice (i + m) n = l.slice i (m + n) := by
  rw [slice, slice, slice, ← drop_drop, take_add]

theorem slice_append_left {l m : List α} {i n : ℕ} (h : i + n ≤ l.length) :
    (l ++ m).slice i n = l.slice i n := by
  rw [slice, slice, drop_append_of_le_length (by omega), take_append_of_le_length (by simp; omega)]

theorem slice_append_right {l m : List α} {i n : ℕ} (h : l.length ≤ i) :
    (l ++ m).slice i n = m.slice (i - l.length) n := by
  rw [slice, slice, drop_append, drop_eq_nil_of_le h, nil_append]

theorem slice_take {l : List α} {i n m : ℕ} (h : i + n ≤ m) :
    (l.take m).slice i n = l.slice i n := by
  rw [slice, slice, drop_take, take_take, Nat.min_eq_left (by omega)]

theorem slice_eq_self {l : List α} {n : ℕ} (h : l.length = n) : l.slice 0 n = l := by
  simp [slice, ← h]

theorem length_overwrite {l d : List α} {i : ℕ} (h : i + d.length ≤ l.length) :
    (l.overwrite i d).length = l.length := by
  simp [overwrite]; omega

@[simp] theorem overwrite_nil (l : List α) (i : ℕ) : l.overwrite i [] = l := by simp [overwrite]

/-- Overwriting two stretches end to end is overwriting one. -/
theorem overwrite_overwrite {l d e : List α} {i : ℕ} (h : i ≤ l.length) :
    (l.overwrite i d).overwrite (i + d.length) e = l.overwrite i (d ++ e) := by
  have hlen : (l.take i ++ d).length = i + d.length := by simp; omega
  have htake : (l.overwrite i d).take (i + d.length) = l.take i ++ d := take_left' hlen
  have hdrop : (l.overwrite i d).drop (i + d.length) = l.drop (i + d.length) := drop_left' hlen
  rw [overwrite, htake, ← drop_drop, hdrop, overwrite, drop_drop]
  simp [Nat.add_assoc]

/-! ### Consecutive ranges -/

/-- Ranges of these lengths, the first from index `i` on and each where the one before ends. -/
def windows (i : ℕ) : List ℕ → List (ℕ × ℕ)
  | [] => []
  | n :: ns => (i, n) :: windows (i + n) ns

theorem le_of_mem_windows {i : ℕ} {ns : List ℕ} {r : ℕ × ℕ} (h : r ∈ windows i ns) :
    i ≤ r.1 ∧ r.1 + r.2 ≤ i + ns.sum := by
  induction ns generalizing i with
  | nil => cases h
  | cons n ns ih =>
    rw [sum_cons]
    rcases mem_cons.mp h with rfl | h
    · exact ⟨Nat.le_refl _, by dsimp only; omega⟩
    · have := ih h
      omega

/-- Slices of consecutive ranges, end to end, are one slice. -/
theorem flatMap_windows (l : List α) (i : ℕ) (ns : List ℕ) :
    ((windows i ns).flatMap fun r => l.slice r.1 r.2) = l.slice i ns.sum := by
  induction ns generalizing i with
  | nil => rw [windows, flatMap_nil, sum_nil, slice_zero_right]
  | cons n ns ih => rw [windows, flatMap_cons, ih, sum_cons, slice_append_slice]

/-- Strings made of pieces of the same lengths are equal if and only if their pieces are. -/
theorem flatMap_eq_iff {β : Type*} {f g : β → List α} {l : List β}
    (h : ∀ x ∈ l, (f x).length = (g x).length) : l.flatMap f = l.flatMap g ↔
    ∀ x ∈ l, f x = g x := by
  induction l with
  | nil => simp
  | cons x l ih =>
    rw [forall_mem_cons] at h
    rw [flatMap_cons, flatMap_cons, forall_mem_cons, ← ih h.2]
    exact ⟨fun hx => append_inj hx h.1, fun hx => by rw [hx.1, hx.2]⟩

end List
