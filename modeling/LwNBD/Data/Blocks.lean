import Mathlib.Data.List.Basic
import Mathlib.Data.Nat.Notation

/-!
# Blocks of memory

Blocks that are allocated and freed, known by numbers. No number is given twice, so that a block
that was freed is never taken for another.

## What is proved

* `Blocks.get_alloc`, `Blocks.get_put_self`, `Blocks.get_put_ne`, `Blocks.get_free_ne` — what is in
  a block afterwards.
* `Blocks.lt_of_get` — a block that is there is not the next one.
-/

/-- The blocks that were allocated; those that were freed are `none`. -/
abbrev Blocks (α : Type*) := List (Option α)

namespace Blocks

variable {α : Type*} {h : Blocks α} {p q : ℕ} {x y : α}

/-- What is in a block, if it is there. -/
def get (h : Blocks α) (p : ℕ) : Option α := h[p]?.join

/-- A new block, with the next number. -/
def alloc (h : Blocks α) (x : α) : Blocks α := h ++ [some x]

/-- A block is written. -/
def put (h : Blocks α) (p : ℕ) (x : α) : Blocks α := h.set p (some x)

/-- A block is freed. -/
def free (h : Blocks α) (p : ℕ) : Blocks α := h.set p none

theorem lt_of_get (hp : h.get p = some x) : p < h.length := by
  by_contra hge
  rw [get, List.getElem?_eq_none (Nat.not_lt.mp hge)] at hp
  cases hp

theorem get_alloc_self : (h.alloc x).get h.length = some x := by
  rw [get, alloc, List.getElem?_concat_length]
  rfl

theorem get_alloc (hp : h.get p = some y) : (h.alloc x).get p = some y := by
  rw [get, alloc, List.getElem?_append_left (lt_of_get hp)]
  exact hp

theorem get_put_self (hp : h.get p = some y) : (h.put p x).get p = some x := by
  rw [get, put, List.getElem?_set_self (lt_of_get hp)]
  rfl

theorem get_put_ne (hne : p ≠ q) : (h.put p x).get q = h.get q := by
  rw [get, put, List.getElem?_set_ne hne, get]

theorem get_free_ne (hne : p ≠ q) : (h.free p).get q = h.get q := by
  rw [get, free, List.getElem?_set_ne hne, get]

end Blocks
