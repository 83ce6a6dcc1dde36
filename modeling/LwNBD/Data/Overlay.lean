import LwNBD.Data.Slice
import Mathlib.Data.List.GetD
import Mathlib.Logic.Function.Basic

/-!
# Overlays

What is stored by place is a function of the place. Storing `n` items from place `o` on lays them
over what is there. A string is such a store too: cut in pages of one length, it is the function
that gives a page by its number (`List.page`), and overwriting whole pages of it is an overlay.

## What is proved

* `overlay_overlay` — two overlays end to end are one.
* `overlay_congr` — what is under the overlay does not matter.
* `stretch_add`, `stretch_overlay`, `stretch_getD` — stretches in two parts, of an overlay, and of a
  string.
* `stretch_overlay_whole` — to lay over a part of a stretch is to overwrite it.
* `List.page_overwrite` — overwriting pages of a string.
* `List.flatten_slice`, `List.flatten_overwrite` — slices of a string that is made of pages.
-/

variable {α : Type*}

/-- The `n` items from place `o` on. -/
def stretch (f : ℕ → α) (o n : ℕ) : List α := (List.range n).map fun i => f (o + i)

/-- The items `g 0`, `g 1`, … , `n` of them, laid over `f` from place `o` on. -/
def overlay (f : ℕ → α) (o n : ℕ) (g : ℕ → α) : ℕ → α := fun p =>
  if o ≤ p ∧ p < o + n then g (p - o) else f p

section Stretch

variable {f : ℕ → α} {o m n : ℕ}

@[simp] theorem length_stretch : (stretch f o n).length = n := by
  rw [stretch, List.length_map, List.length_range]

theorem stretch_add : stretch f o (m + n) = stretch f o m ++ stretch f (o + m) n := by
  rw [stretch, List.range_add, List.map_append, List.map_map]
  refine congrArg (stretch f o m ++ ·) (List.map_congr_left fun i _ => ?_)
  exact congrArg f (Nat.add_assoc o m i).symm

theorem take_stretch (h : m ≤ n) : (stretch f o n).take m = stretch f o m := by
  obtain ⟨d, rfl⟩ := Nat.exists_eq_add_of_le h
  rw [stretch_add]
  exact List.take_left' length_stretch

theorem stretch_getD {l : List α} {x : α} (h : o + n ≤ l.length) :
    stretch (fun p => l.getD p x) o n = (l.drop o).take n := by
  refine List.ext_getElem ?_ fun i hi hi' => ?_
  · rw [length_stretch, List.length_take, List.length_drop]
    omega
  · rw [length_stretch] at hi
    simp only [stretch, List.getElem_map, List.getElem_range, List.getElem_take, List.getElem_drop]
    exact List.getD_eq_getElem _ _ (by omega)

end Stretch

section Overlay

variable {f f' g g' : ℕ → α} {o m n p : ℕ}

theorem stretch_overlay : stretch (overlay f o n g) o n = stretch g 0 n := by
  refine List.map_congr_left fun i hi => ?_
  have hlt := List.mem_range.mp hi
  rw [overlay, if_pos ⟨Nat.le_add_right o i, by omega⟩, Nat.add_sub_cancel_left, Nat.zero_add]

theorem slice_stretch {size : ℕ} (h : o + n ≤ size) :
    (stretch f 0 size).slice o n = stretch f o n := by
  obtain ⟨d, rfl⟩ := Nat.exists_eq_add_of_le h
  rw [stretch_add, stretch_add, Nat.zero_add, Nat.zero_add, List.append_assoc, List.slice,
    List.drop_left' length_stretch, List.take_left' length_stretch]

/-- A stretch that something is laid over is overwritten. -/
theorem stretch_overlay_whole {size : ℕ} (h : o + n ≤ size) :
    stretch (overlay f o n g) 0 size = (stretch f 0 size).overwrite o (stretch g 0 n) := by
  obtain ⟨d, rfl⟩ := Nat.exists_eq_add_of_le h
  have hout {k m : ℕ} (hk : k + m ≤ o ∨ o + n ≤ k) :
      stretch (overlay f o n g) k m = stretch f k m := by
    refine List.map_congr_left fun i hi => ?_
    have hlt := List.mem_range.mp hi
    exact if_neg (by omega)
  have hcut : stretch f 0 (o + n + d) = stretch f 0 o ++
      (stretch f o n ++ stretch f (o + n) d) := by
    rw [stretch_add, stretch_add, Nat.zero_add, Nat.zero_add, List.append_assoc]
  have hlen : (stretch f 0 o ++ stretch f o n).length = o + n := by
    rw [List.length_append, length_stretch, length_stretch]
  rw [stretch_add, stretch_add, Nat.zero_add, Nat.zero_add, hout (.inl (by omega)),
    hout (.inr (Nat.le_refl _)), stretch_overlay, List.overwrite, length_stretch, hcut,
    List.take_left' length_stretch, ← List.append_assoc, List.drop_left' hlen]

theorem overlay_in (h : o ≤ p ∧ p < o + n) : overlay f o n g p = g (p - o) := if_pos h

theorem overlay_out (h : ¬ (o ≤ p ∧ p < o + n)) : overlay f o n g p = f p := if_neg h

@[simp] theorem overlay_zero : overlay f o 0 g = f := by
  funext p
  exact overlay_out (by omega)

/-- What is the same under an overlay is the same with it. -/
theorem overlay_agree (h : f p = f' p) : overlay f o n g p = overlay f' o n g p := by
  unfold overlay
  rw [h]

theorem overlay_overlay :
    overlay (overlay f o m g) (o + m) n (fun i => g (m + i)) = overlay f o (m + n) g := by
  funext p
  by_cases hn : o + m ≤ p ∧ p < o + m + n
  · rw [overlay_in hn, overlay_in (by omega)]
    exact congrArg g (by omega)
  · rw [overlay_out hn]
    by_cases hm : o ≤ p ∧ p < o + m
    · rw [overlay_in hm, overlay_in (by omega)]
    · rw [overlay_out hm, overlay_out (by omega)]

/-- What is under the overlay does not matter, nor what is not laid over. -/
theorem overlay_congr (hf : ∀ p, ¬ (o ≤ p ∧ p < o + n) → f p = f' p) (hg : ∀ i < n, g i = g' i) :
    overlay f o n g = overlay f' o n g' := by
  funext p
  by_cases h : o ≤ p ∧ p < o + n
  · rw [overlay_in h, overlay_in h]
    exact hg _ (by omega)
  · rw [overlay_out h, overlay_out h]
    exact hf p h

theorem overlay_succ {d : ℕ → α} (hd : d 0 = g m) :
    overlay (overlay f o m g) (o + m) 1 d = overlay f o (m + 1) g := by
  rw [← overlay_overlay]
  refine overlay_congr (fun _ _ => rfl) fun i hi => ?_
  obtain rfl : i = 0 := by omega
  exact hd

theorem update_overlay : Function.update (overlay f o m g) (o + m) (g m) =
    overlay f o (m + 1) g := by
  rw [← overlay_succ (d := fun _ => g m) rfl]
  funext p
  by_cases hp : p = o + m
  · subst hp
    rw [Function.update_self, overlay_in ⟨Nat.le_refl _, by omega⟩]
  · rw [Function.update_of_ne hp]
    exact (overlay_out (by omega)).symm

/-- Part of what is there, laid over it, and part of something else. -/
theorem overlay_patch {b k : ℕ} (hk : k + m ≤ n) {u : ℕ → α} :
    overlay f b n (overlay (overlay u 0 n fun i => f (b + i)) k m g) = overlay f (b + k) m g := by
  funext p
  by_cases hm : b + k ≤ p ∧ p < b + k + m
  · rw [overlay_in hm, overlay_in (by omega), overlay_in (by omega)]
    exact congrArg g (by omega)
  · rw [overlay_out hm]
    by_cases hn : b ≤ p ∧ p < b + n
    · rw [overlay_in hn, overlay_out (by omega), overlay_in (by omega)]
      exact congrArg f (by omega)
    · rw [overlay_out hn]

theorem overlay_whole {u : ℕ → α} : overlay f o n (overlay u 0 n g) = overlay f o n g :=
  overlay_congr (fun _ _ => rfl) fun i hi => by
    rw [overlay_in ⟨Nat.zero_le i, by omega⟩, Nat.sub_zero]

end Overlay

namespace List

/-- The page with number `i`, where pages have `n` items. -/
def page (l : List α) (n i : ℕ) : List α := l.slice (i * n) n

theorem page_drop (l : List α) (n m i : ℕ) : (l.drop (m * n)).page n i = l.page n (m + i) := by
  rw [page, page, slice, slice, drop_drop, Nat.add_mul]

theorem page_take {l : List α} {n m i : ℕ} (h : i < m) : (l.take (m * n)).page n i = l.page n i :=
  slice_take (by rw [← Nat.succ_mul]; exact Nat.mul_le_mul_right n h)

theorem page_zero {l : List α} {n : ℕ} (h : l.length = n) : l.page n 0 = l := by
  rw [page, Nat.zero_mul, slice_eq_self h]

theorem slice_overwrite_before {l d : List α} {i j n : ℕ} (h : j + n ≤ i) (hi : i ≤ l.length) :
    (l.overwrite i d).slice j n = l.slice j n := by
  rw [overwrite, append_assoc, slice_append_left (by simp; omega), slice_take h]

theorem slice_overwrite_after {l d : List α} {i j n : ℕ} (h : i + d.length ≤ j)
    (hi : i ≤ l.length) : (l.overwrite i d).slice j n = l.slice j n := by
  rw [overwrite, slice_append_right (by simp; omega), slice, slice, drop_drop]
  congr 2
  simp
  omega

theorem slice_overwrite_in {l d : List α} {i j n : ℕ} (h : i ≤ j) (hj : j + n ≤ i + d.length)
    (hi : i ≤ l.length) : (l.overwrite i d).slice j n = d.slice (j - i) n := by
  have htake : (l.take i).length = i := by simp; omega
  rw [overwrite, append_assoc, slice_append_right (by omega), htake, slice_append_left (by omega)]

/-- Overwriting pages of a string lays them over its pages. -/
theorem page_overwrite {l d : List α} {n j m : ℕ} (hd : d.length = m * n) (hl : j * n ≤ l.length) :
    (l.overwrite (j * n) d).page n = overlay (l.page n) j m (d.page n) := by
  funext i
  by_cases hi : j ≤ i ∧ i < j + m
  · have hle : j * n ≤ i * n := Nat.mul_le_mul_right n hi.1
    have hlt : (i + 1) * n ≤ (j + m) * n := Nat.mul_le_mul_right n hi.2
    rw [Nat.add_mul, Nat.add_mul, Nat.one_mul] at hlt
    rw [overlay_in hi, page, slice_overwrite_in hle (by omega) hl, page, Nat.sub_mul]
  · rw [overlay_out hi]
    rcases Nat.lt_or_ge i j with h | h
    · have hle : (i + 1) * n ≤ j * n := Nat.mul_le_mul_right n h
      rw [Nat.add_mul, Nat.one_mul] at hle
      exact slice_overwrite_before hle hl
    · have hle : (j + m) * n ≤ i * n := Nat.mul_le_mul_right n (by omega)
      rw [Nat.add_mul] at hle
      exact slice_overwrite_after (by omega) hl

/-! ### Pages one after the other -/

section Flatten

variable {l d : List (List α)} {k : ℕ}

theorem length_flatten_of (h : ∀ x ∈ l, x.length = k) : l.flatten.length = l.length * k := by
  induction l with
  | nil => exact (Nat.zero_mul k).symm
  | cons x l ih =>
    rw [flatten_cons, length_append, h x mem_cons_self, ih fun y hy => h y (mem_cons_of_mem x hy),
      length_cons, Nat.succ_mul, Nat.add_comm]

theorem take_flatten (h : ∀ x ∈ l, x.length = k) (i : ℕ) :
    (l.take i).flatten = l.flatten.take (i * k) := by
  induction l generalizing i with
  | nil => simp
  | cons x l ih =>
    cases i with
    | zero => simp
    | succ i =>
      have hx := h x mem_cons_self
      rw [take_succ_cons, flatten_cons, flatten_cons, ih fun y hy => h y (mem_cons_of_mem x hy),
        Nat.succ_mul, Nat.add_comm, take_append, hx, Nat.add_sub_cancel_left,
        take_of_length_le (l := x) (by omega)]

theorem drop_flatten (h : ∀ x ∈ l, x.length = k) (i : ℕ) :
    (l.drop i).flatten = l.flatten.drop (i * k) := by
  induction l generalizing i with
  | nil => simp
  | cons x l ih =>
    cases i with
    | zero => simp
    | succ i =>
      rw [drop_succ_cons, flatten_cons, ih fun y hy => h y (mem_cons_of_mem x hy),
        Nat.succ_mul, Nat.add_comm, ← drop_drop, drop_left' (h x mem_cons_self)]

theorem flatten_slice (h : ∀ x ∈ l, x.length = k) (i n : ℕ) :
    (l.slice i n).flatten = l.flatten.slice (i * k) (n * k) := by
  rw [slice, take_flatten (fun x hx => h x (mem_of_mem_drop hx)), drop_flatten h, slice]

/-- Overwriting some pages overwrites a slice of the string. -/
theorem flatten_overwrite (h : ∀ x ∈ l, x.length = k) (hd : ∀ x ∈ d, x.length = k) (i : ℕ) :
    (l.overwrite i d).flatten = l.flatten.overwrite (i * k) d.flatten := by
  rw [overwrite, flatten_append, flatten_append, take_flatten h, drop_flatten h, overwrite,
    length_flatten_of hd, Nat.add_mul]

end Flatten

/-- The pages of a string, one after the other, are its start. -/
theorem flatten_stretch_page (l : List α) (k n : ℕ) :
    (stretch (l.page k) 0 n).flatten = l.take (n * k) := by
  induction n with
  | zero => simp [stretch]
  | succ n ih =>
    have hlast : stretch (l.page k) (0 + n) 1 = [l.page k n] := by simp [stretch]
    rw [stretch_add, flatten_append, ih, hlast, flatten_singleton, Nat.succ_mul, take_add]
    rfl

end List
