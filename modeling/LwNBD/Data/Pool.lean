import Mathlib.Data.List.Nodup
import Mathlib.Data.Nat.Notation
import Mathlib.Data.Vector.Basic

/-!
# A pool that takes nothing back

A pool of `n` slots, each of which is free or used. A slot is taken by looking for the first that
is free, and is never given back. So the slots are taken in order, each at most once, and those
that are used are the first ones: the pool has no holes.

## The model

* `Pool.next` — the first free slot, or `n`.
* `Pool.take` — take a slot.
* `Pool.Gapless` — there are no holes.
* `Pool.Handed` — what a pool has handed out, in order, from the time all its slots were free.

## What is proved

* `Pool.Gapless.take` — taking a slot makes no hole.
* `Pool.Handed.next_eq` — the first free slot counts what was handed out.
* `Pool.Handed.range` — it was handed out in order, and so no slot twice.
-/

namespace Pool

variable {α : Type} (free : α → Bool) (used : α) {n : ℕ}

/-- The first free slot, or `n`. -/
def next (v : Vector α n) : ℕ := v.toList.findIdx free

/-- Take the first free slot, if there is one. -/
def take (v : Vector α n) : Option (Fin n × Vector α n) :=
  if h : next free v < n then some (⟨next free v, h⟩, v.set (next free v) used) else none

/-- What has been handed out, in order. -/
inductive Handed : Vector α n → List (Fin n) → Prop where
  /-- All slots are free. -/
  | start {v : Vector α n} : (∀ i : Fin n, free v[i] = true) → Handed v []
  /-- One more is taken. -/
  | take {v v' : Vector α n} {hs : List (Fin n)} {i : Fin n} : Handed v hs →
    take free used v = some (i, v') → Handed v' (hs ++ [i])

variable {free used} {v v' : Vector α n} {hs : List (Fin n)} {i : Fin n}

theorem next_le : next free v ≤ n := by
  rw [next]
  exact Nat.le_trans List.findIdx_le_length (Nat.le_of_eq v.length_toList)

/-- The slots before the first free one are used. -/
theorem not_free_of_lt (h : i.val < next free v) : free v[i] = false := by
  have := List.not_of_lt_findIdx h
  simpa using this

theorem free_next (h : next free v < n) : free v[next free v] = true := by
  have h' : v.toList.findIdx free < v.toList.length := by rw [v.length_toList]; exact h
  have := List.findIdx_getElem (w := h')
  simpa [next] using this

theorem take_eq_none_iff : take free used v = none ↔ next free v = n := by
  have hle : next free v ≤ n := next_le
  unfold take
  split_ifs with h
  · simp [Nat.ne_of_lt h]
  · simpa using Nat.le_antisymm hle (Nat.le_of_not_lt h)

theorem take_eq_some (h : take free used v = some (i, v')) :
    i.val = next free v ∧ v' = v.set i used := by
  unfold take at h
  split_ifs at h with hlt
  · cases h
    exact ⟨rfl, rfl⟩

theorem free_of_take (h : take free used v = some (i, v')) : free v[i] = true := by
  have hi := (take_eq_some h).1
  have hfree : free v[next free v] = true := free_next (hi ▸ i.isLt)
  simpa [hi] using hfree

/-- After a slot is taken, the next is a later one. -/
theorem next_lt_of_take (hused : free used = false) (h : take free used v = some (i, v')) :
    next free v < next free v' := by
  obtain ⟨hi, rfl⟩ := take_eq_some h
  refine Nat.lt_of_not_le fun hle => ?_
  have hlt : next free (v.set i used) < n := Nat.lt_of_le_of_lt hle (by rw [← hi]; exact i.isLt)
  have hfree := free_next hlt
  by_cases hj : i.val = next free (v.set i used)
  · simp [← hj, hused] at hfree
  · have hbefore : free v[(⟨_, hlt⟩ : Fin n)] = false := not_free_of_lt 
      (Nat.lt_of_le_of_ne hle fun he => hj (hi.trans he.symm))
    rw [Vector.getElem_set_ne i.isLt hlt hj] at hfree
    exact Bool.false_ne_true (hbefore.symm.trans hfree)

/-- The slots that are used are the first `k`: then `k` is the first free slot. -/
theorem next_eq_of {k : ℕ} (hk : k ≤ n) (h : ∀ i : Fin n, free v[i] = true ↔ k ≤ i) :
    next free v = k := by
  refine Nat.le_antisymm (Nat.le_of_not_lt fun hlt => ?_) (Nat.le_of_not_lt fun hlt => ?_)
  · have hfree : free v[(⟨k, Nat.lt_of_lt_of_le hlt next_le⟩ : Fin n)] = false := not_free_of_lt hlt
    rw [(h _).mpr (Nat.le_refl k)] at hfree
    cases hfree
  · have hn : next free v < n := Nat.lt_of_lt_of_le hlt hk
    have hle : k ≤ next free v := (h ⟨next free v, hn⟩).mp (free_next hn)
    exact Nat.not_le_of_lt hlt hle

/-- There are no holes: the slots that are used are the first ones. -/
def Gapless (free : α → Bool) (v : Vector α n) : Prop :=
  ∀ i : Fin n, free v[i] = true ↔ next free v ≤ i

/-- Taking a slot makes no hole. -/
theorem Gapless.take (h : Gapless free v) (hused : free used = false)
    (ht : Pool.take free used v = some (i, v')) :
    next free v' = next free v + 1 ∧ Gapless free v' := by
  obtain ⟨hi, rfl⟩ := take_eq_some ht
  have hfree (j : Fin n) : free (v.set i used)[j] = true ↔ next free v + 1 ≤ j := by
    rw [← hi]
    by_cases hj : j = i
    · subst hj
      simp [hused]
    · have hv : (v.set i used)[j] = v[j] :=
        Vector.getElem_set_ne i.isLt j.isLt fun he => hj (Fin.ext he.symm)
      rw [hv, h j, ← hi]
      exact ⟨fun hij => Nat.lt_of_le_of_ne hij fun he => hj (Fin.ext he.symm), Nat.le_of_succ_le⟩
  have hnext : next free (v.set i used) = next free v + 1 := next_eq_of (hi ▸ i.isLt) hfree
  refine ⟨hnext, fun j => ?_⟩
  rw [hfree, hnext]

/-! ### What has been handed out -/

theorem Handed.gapless (hused : free used = false) (h : Handed free used v hs) :
    next free v = hs.length ∧ Gapless free v := by
  induction h with
  | start h =>
    have hnext := next_eq_of (Nat.zero_le n) fun i => ⟨fun _ => Nat.zero_le _, fun _ => h i⟩
    refine ⟨hnext, fun i => ?_⟩
    rw [hnext]
    exact ⟨fun _ => Nat.zero_le _, fun _ => h i⟩
  | take _ ht ih =>
    obtain ⟨hnext, hgapless⟩ := ih
    rw [List.length_append, List.length_singleton, ← hnext]
    exact hgapless.take hused ht

/-- The first free slot counts what has been handed out. -/
theorem Handed.next_eq (hused : free used = false) (h : Handed free used v hs) :
    next free v = hs.length :=
  (h.gapless hused).1

/-- The slots are handed out in order. -/
theorem Handed.range (hused : free used = false) (h : Handed free used v hs) :
    hs.map Fin.val = List.range hs.length := by
  induction h with
  | start => rfl
  | @take v v' hs i h ht ih =>
    obtain ⟨hi, -⟩ := take_eq_some ht
    rw [List.map_append, ih, List.length_append, List.length_singleton, List.range_succ,
      List.map_singleton, hi, h.next_eq hused]

theorem Handed.nodup (hused : free used = false) (h : Handed free used v hs) : hs.Nodup := by
  have hmap : (hs.map Fin.val).Nodup := by
    rw [h.range hused]
    exact List.nodup_range
  exact hmap.of_map

end Pool
