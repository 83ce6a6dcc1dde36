import LwNBD.Data.Overlay
import Mathlib.Data.Int.ModEq

/-!
# Rings

A ring of `n` cells holds the items of a stream that were put and not taken yet: the item at
position `p` of the stream is in cell `p % n`. Items are put and taken several at a time, and then
in two parts if the cells that they are in go round the end.

## The model

* `Ring.parts` — the two parts.
* `Ring.put`, `Ring.take` — what is done with them.
* `Ring.Holds` — the cells hold the items from position `r` to position `w` of a stream.

## What is proved

* `Ring.mem_parts`, `Ring.not_overrun` — the parts are in the ring, and are cells of positions that
  are free.
* `Ring.put_apply` — what each cell holds afterwards.
* `Ring.Holds.put`, `Ring.Holds.take_eq` — a ring that is not overrun is a queue.
-/

namespace Ring

variable {α : Type*} {n : ℕ}

/-- The stretches of cells that the `k` positions from `w` on are in: where each begins, and its
length. -/
def parts (n w k : ℕ) : List (ℕ × ℕ) :=
  if n < w % n + k then [(w % n, n - w % n), (0, k - (n - w % n))] else [(w % n, k)]

/-- Put `k` items, the first in the cell of position `w`. -/
def put (n : ℕ) (cell : ℕ → α) (w k : ℕ) (data : ℕ → α) : ℕ → α :=
  if n < w % n + k then
    overlay (overlay cell (w % n) (n - w % n) data) 0 (k - (n - w % n)) fun i =>
      data (n - w % n + i)
  else overlay cell (w % n) k data

/-- Take `k` items, the first from the cell of position `r`. -/
def take (n : ℕ) (cell : ℕ → α) (r k : ℕ) : List α :=
  if n < r % n + k then stretch cell (r % n) (n - r % n) ++ stretch cell 0 (k - (n - r % n))
  else stretch cell (r % n) k

/-- The cells hold the items from position `r` to position `w` of the stream. -/
def Holds (n : ℕ) (cell stream : ℕ → α) (r w : ℕ) : Prop :=
  ∀ p, r ≤ p → p < w → cell (p % n) = stream p

variable {cell stream data : ℕ → α} {r w k : ℕ}

/-- The cell of a position within one round of another. -/
theorem add_mod_eq {j : ℕ} (hj : j < n) :
    (w + j) % n = if w % n + j < n then w % n + j else w % n + j - n := by
  have hlt : w % n < n := Nat.mod_lt _ (by omega)
  rw [Nat.add_mod, Nat.mod_eq_of_lt hj]
  split_ifs with hround
  · exact Nat.mod_eq_of_lt hround
  · rw [Nat.mod_eq_sub_mod (Nat.not_lt.mp hround), Nat.mod_eq_of_lt (by omega)]

/-- The parts are in the ring, and each cell of them is that of one of the positions. -/
theorem mem_parts {part : ℕ × ℕ} (hn : 0 < n) (hk : k ≤ n) (h : part ∈ parts n w k) :
    part.1 + part.2 ≤ n ∧ ∀ c, part.1 ≤ c → c < part.1 + part.2 → ∃ j < k, c = (w + j) % n := by
  have hlt : w % n < n := Nat.mod_lt _ hn
  rw [parts] at h
  by_cases hparts : n < w % n + k
  · rw [if_pos hparts] at h
    rcases List.mem_pair.mp h with rfl | rfl
    · refine ⟨by omega, fun c hle hc => ⟨c - w % n, by omega, ?_⟩⟩
      rw [add_mod_eq (by omega), if_pos (by omega)]
      omega
    · refine ⟨by omega, fun c hle hc => ⟨n - w % n + c, by omega, ?_⟩⟩
      rw [add_mod_eq (by omega), if_neg (by omega)]
      omega
  · rw [if_neg hparts] at h
    cases List.mem_singleton.mp h
    refine ⟨by omega, fun c hle hc => ⟨c - w % n, by omega, ?_⟩⟩
    rw [add_mod_eq (by omega), if_pos (by omega)]
    omega

/-- Where there is room no cell is overrun that is in use. -/
theorem not_overrun {p j : ℕ} (hroom : w + k ≤ r + n) (hr : r ≤ p) (hp : p < w) (hj : j < k) :
    p % n ≠ (w + j) % n := by
  intro heq
  have hdvd : n ∣ w + j - p := (Nat.modEq_iff_dvd' (by omega)).mp heq
  have hle := Nat.le_of_dvd (by omega) hdvd
  omega

/-- What a cell holds after items were put: one of them, or what it held. -/
theorem put_apply {j : ℕ} (hj : j < n) (hk : k ≤ n) :
    put n cell w k data ((w + j) % n) = if j < k then data j else cell ((w + j) % n) := by
  have hlt : w % n < n := Nat.mod_lt _ (by omega)
  rw [add_mod_eq hj, put]
  by_cases hparts : n < w % n + k
  · rw [if_pos hparts]
    by_cases hround : w % n + j < n
    · rw [if_pos hround, overlay_out (by omega), overlay_in (by omega), if_pos (by omega)]
      exact congrArg data (by omega)
    · rw [if_neg hround]
      by_cases hjk : j < k
      · rw [overlay_in (by omega), if_pos hjk]
        exact congrArg data (by omega)
      · rw [overlay_out (by omega), overlay_out (by omega), if_neg hjk]
  · rw [if_neg hparts]
    by_cases hjk : j < k
    · rw [if_pos (by omega), overlay_in (by omega), if_pos hjk]
      exact congrArg data (by omega)
    · rw [if_neg hjk]
      split_ifs
      · rw [overlay_out (by omega)]
      · rw [overlay_out (by omega)]

/-- Items are put where there is room for them. -/
theorem Holds.put (h : Holds n cell stream r w) (hroom : w + k ≤ r + n) (hrw : r ≤ w)
    (hdata : ∀ i < k, stream (w + i) = data i) :
    Holds n (put n cell w k data) stream r (w + k) := by
  intro p hr hp
  by_cases hw : w ≤ p
  · obtain ⟨j, rfl⟩ := Nat.exists_eq_add_of_le hw
    rw [put_apply (by omega) (by omega), if_pos (by omega), hdata j (by omega)]
  · -- An item that was there is behind by less than a round.
    obtain ⟨j, hj⟩ := Nat.exists_eq_add_of_le (show w ≤ p + n by omega)
    have hmod : p % n = (w + j) % n := by rw [← hj, Nat.add_mod_right]
    rw [hmod, put_apply (by omega) (by omega), if_neg (by omega), ← hmod]
    exact h p hr (by omega)

/-- What is taken is in the cells of its positions. -/
theorem take_eq (hk : k ≤ n) : take n cell r k = (List.range k).map fun i =>
    cell ((r + i) % n) := by
  rw [take]
  by_cases hparts : n < r % n + k
  · rw [if_pos hparts]
    obtain ⟨m, hm⟩ := Nat.exists_eq_add_of_le (show n - r % n ≤ k by omega)
    rw [hm, Nat.add_sub_cancel_left, List.range_add, List.map_append, List.map_map]
    congr 1
    · refine List.map_congr_left fun i hi => congrArg cell ?_
      have := List.mem_range.mp hi
      rw [add_mod_eq (by omega), if_pos (by omega)]
    · refine List.map_congr_left fun i hi => ?_
      have := List.mem_range.mp hi
      have hlt : r % n < n := Nat.mod_lt _ (by omega)
      show cell (0 + i) = cell ((r + (n - r % n + i)) % n)
      rw [add_mod_eq (by omega), if_neg (by omega)]
      exact congrArg cell (by omega)
  · rw [if_neg hparts]
    refine List.map_congr_left fun i hi => congrArg cell ?_
    have := List.mem_range.mp hi
    rw [add_mod_eq (by omega), if_pos (by omega)]

/-- The items that are taken are the next of the stream. -/
theorem Holds.take_eq (h : Holds n cell stream r w) (hk : k ≤ n) (hw : r + k ≤ w) :
    take n cell r k = stretch stream r k := by
  rw [Ring.take_eq hk]
  refine List.map_congr_left fun i hi => ?_
  have := List.mem_range.mp hi
  exact h (r + i) (by omega) (by omega)

theorem Holds.drop (h : Holds n cell stream r w) {r' : ℕ} (hr : r ≤ r') :
    Holds n cell stream r' w :=
  fun p hp hw => h p (Nat.le_trans hr hp) hw

end Ring
