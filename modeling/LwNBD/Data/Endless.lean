import LwNBD.Data.Overlay

/-!
# Endless repetitions

A string that is repeated without end. Who sends it piece by piece keeps its place in the string,
and starts again where the string ends.

## What is proved

* `stretch_endless` — up to the end of the string a stretch is a part of it.
* `add_mod_place` — the place after a part.
-/

variable {α : Type*} {l : List α} {x : α} {o k : ℕ}

/-- The string again and again. There is an `x` at every place if the string is empty. -/
def endless (l : List α) (x : α) : ℕ → α := fun p => l.getD (p % l.length) x

theorem add_mod_place {n : ℕ} (h : o % n + k ≤ n) :
    (o + k) % n = if o % n + k < n then o % n + k else 0 := by
  rw [← Nat.mod_add_mod]
  split_ifs with hlt
  · exact Nat.mod_eq_of_lt hlt
  · rw [Nat.le_antisymm h (Nat.not_lt.mp hlt), Nat.mod_self]

/-- Up to the end of the string a stretch is a part of it. -/
theorem stretch_endless (h : o % l.length + k ≤ l.length) :
    stretch (endless l x) o k = l.slice (o % l.length) k := by
  rw [List.slice, ← stretch_getD (x := x) h]
  refine List.map_congr_left fun i hi => ?_
  have hlt : o % l.length + i < l.length :=
    Nat.lt_of_lt_of_le (Nat.add_lt_add_left (List.mem_range.mp hi) _) h
  rw [endless, add_mod_place (Nat.le_of_lt hlt), if_pos hlt]
