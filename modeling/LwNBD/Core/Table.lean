import Mathlib.Data.List.OfFn
import LwNBD.Core.Contexts
import LwNBD.Data.Pool

/-!
# The context table, as a pool and as a search table

What the calls of `src/contexts.c` rely on: that the table has no holes, and that names end
within their arrays.

## The model

* `IsCStr`, `Context.Fits` — the strings of a context end within their arrays.
* `Registry.newContext` — `lwnbd_new_context`, as a function of the table.
* `Registry.FirstNamed` — the first visible context of a name.

## What is proved

* `newContext_eq_some`, `run_lwnbdNewContext` — taking a context.
* `strncmp_eq_zero` — comparing the first 32 characters compares the names, of which one is shorter.
* `getContextString_eq_some`, `getContextString_eq_none` — the search finds the first.
-/

namespace LwNBD

open Resumption

/-! ### The context table, as a pool -/

/-- The C string fits in a `char[size]`, with its `NUL`. -/
def IsCStr (size : ℕ) (b : Bytes) : Prop := 0 ∉ b ∧ b.length < size

instance (size : ℕ) (b : Bytes) : Decidable (IsCStr size b) := inferInstanceAs (Decidable (_ ∧ _))

/-- The strings of a context end within their arrays. -/
def Context.Fits (c : Context) : Prop := IsCStr 32 c.name ∧ IsCStr 64 c.description

instance (c : Context) : Decidable c.Fits := inferInstanceAs (Decidable (_ ∧ _))

namespace Registry

/-- A slot that is free. -/
def isFree (st : ContextState) : Bool := st = .free

/-- The slot is created. -/
def Created (reg : Registry) (i : ContextIdx) : Prop := reg.status.get i = .created

instance (reg : Registry) (i : ContextIdx) : Decidable (reg.Created i) :=
  inferInstanceAs (Decidable (_ = _))

/-- Mark a slot as created. -/
def mark (reg : Registry) (i : ContextIdx) : Registry :=
  { reg with status := reg.status.set i.val .created i.isLt }

/-- `lwnbd_new_context`, which returns the context, or `none` for `NULL`, and leaves the table. -/
def newContext (reg : Registry) : Option (ContextIdx × Registry) :=
  (Pool.take isFree .created reg.status).map fun x => (x.1, { reg with status := x.2 })

variable {reg reg' : Registry} {i j : ContextIdx}

theorem newContext_eq_none : reg.newContext = none ↔ reg.firstFree = MAX_CONTEXTS := by
  rw [newContext, Option.map_eq_none_iff, Pool.take_eq_none_iff]
  rfl

theorem newContext_eq_some (h : reg.newContext = some (i, reg')) :
    i.val = reg.firstFree ∧ reg' = reg.mark i ∧
      Pool.take isFree .created reg.status = some (i, reg'.status) := by
  rw [newContext, Option.map_eq_some_iff] at h
  obtain ⟨⟨k, st⟩, ht, hk⟩ := h
  cases hk
  obtain ⟨hi, rfl⟩ := Pool.take_eq_some ht
  exact ⟨hi, rfl, ht⟩

theorem get_newContext (h : reg.newContext = some (i, reg')) : reg'.get j = reg.get j := by
  obtain ⟨-, rfl, -⟩ := newContext_eq_some h
  rfl

@[simp] theorem status_update (f : Context → Context) : (reg.update i f).status = reg.status := rfl

@[simp] theorem contextsCount_update (f : Context → Context) :
    (reg.update i f).contextsCount = reg.contextsCount := rfl

theorem update_update (f g : Context → Context) :
    (reg.update i f).update i g = reg.update i fun c => g (f c) := by
  rw [update, get_update, update, update, Vector.set_set]

@[simp] theorem update_id : reg.update i id = reg := by
  rw [update, id, get]
  exact congrArg (fun v => { reg with contexts := v }) (Vector.set_getElem_self i.isLt)

/-- The contexts, when one was taken and written. -/
theorem get_update_newContext (h : reg.newContext = some (i, reg')) (f : Context → Context) :
    (reg'.update i f).get j = if j = i then f (reg.get i) else reg.get j := by
  split_ifs with hj
  · rw [hj, get_update, get_newContext h]
  · rw [get_update_ne _ _ hj, get_newContext h]

/-- The table has no holes: the created slots are the first ones. -/
def Gapless (reg : Registry) : Prop := ∀ i : ContextIdx, reg.Created i ↔ i < reg.contextsCount

theorem gapless_iff : reg.Gapless ↔ Pool.Gapless isFree reg.status := by
  have hstate : ∀ st : ContextState, st = .created ↔ ¬ isFree st = true := by
    rintro (_ | _) <;> decide
  have hcreated (i : ContextIdx) : reg.Created i ↔ ¬ isFree reg.status[i] = true := hstate _
  refine forall_congr' fun i => ?_
  have hcount : i.val < reg.contextsCount ↔ ¬ Pool.next isFree reg.status ≤ i := Nat.not_le.symm
  rw [hcreated, hcount]
  exact not_iff_not

theorem Gapless.contextsCount (hg : reg.Gapless) (h : reg.newContext = some (i, reg')) :
    reg'.contextsCount = reg.contextsCount + 1 := by
  have hpool := gapless_iff.mp hg
  exact (hpool.take rfl (newContext_eq_some h).2.2).1

/-- There are more contexts after one was taken. -/
theorem contextsCount_lt (h : reg.newContext = some (i, reg')) :
    reg.contextsCount < reg'.contextsCount :=
  Pool.next_lt_of_take rfl (newContext_eq_some h).2.2

/-- The names and descriptions of the contexts that are counted. -/
def announced (reg : Registry) : List (Bytes × Bytes) :=
  (reg.contexts.toList.take reg.contextsCount).map fun c => (c.name, c.description)

end Registry

/-- `lwnbd_new_context`, run. -/
theorem run_lwnbdNewContext {σ : Type} (env : Env Call Resp σ) (s : Shared) (w : σ) :
    lwnbdNewContext.run env s w = match s.reg.newContext with
      | none => ⟨.ret none, s, w, []⟩
      | some (i, reg) => ⟨.ret (some i), { s with reg := reg }, w, []⟩ := by
  cases hn : s.reg.newContext with
  | none =>
    have hfull := Registry.newContext_eq_none.mp hn
    simp [lwnbdNewContext, Prog.run_bind, Result.andThen, hfull]
  | some x =>
    obtain ⟨i, reg⟩ := x
    obtain ⟨hi, rfl, -⟩ := Registry.newContext_eq_some hn
    have hlt : s.reg.firstFree < MAX_CONTEXTS := by rw [← hi]; exact i.isLt
    have hfin : i = ⟨s.reg.firstFree, hlt⟩ := Fin.ext hi
    subst hfin
    simp only [lwnbdNewContext, Prog.run_bind, Prog.run_read, Result.andThen]
    rw [dif_pos hlt]
    rfl

/-! ### The search -/

/-- Strings of which one is shorter than `n` compare as they are. -/
theorem strncmp_eq_zero {a b : Bytes} {n : ℕ} (ha : 0 ∉ a) (hb : 0 ∉ b) (h : a.length < n) :
    strncmp a b n = 0 ↔ a = b := by
  induction a generalizing b n with
  | nil =>
    cases n with
    | zero => exact absurd h (Nat.not_lt_zero _)
    | succ n =>
      cases b with
      | nil => simp [strncmp]
      | cons y b =>
        have hy : y.toNat ≠ 0 := fun he => hb (by simp [← UInt8.toNat_inj, he])
        simp [strncmp, hy]
  | cons x a ih =>
    cases n with
    | zero => exact absurd h (Nat.not_lt_zero _)
    | succ n =>
      cases b with
      | nil =>
        have hx : x.toNat ≠ 0 := fun he => ha (by simp [← UInt8.toNat_inj, he])
        simp [strncmp, hx]
      | cons y b =>
        have hrest :=
          ih (fun hm => ha (.tail _ hm)) (fun hm => hb (.tail _ hm)) (Nat.lt_of_succ_lt_succ h)
        by_cases hxy : x = y
        · subst hxy
          rw [strncmp, if_pos rfl, hrest, List.cons.injEq, eq_self_iff_true, true_and]
        · have hne : (x.toNat : ℤ) - y.toNat ≠ 0 := fun he => hxy (UInt8.toNat_inj.mp (by omega))
          rw [strncmp, if_neg hxy, List.cons.injEq]
          exact ⟨fun he => absurd he hne, fun he => absurd he.1 hxy⟩

namespace Registry

/-- The context in slot `i` is the first visible one of that name. -/
def FirstNamed (reg : Registry) (name : Bytes) (i : ContextIdx) : Prop :=
  i < reg.contextsCount ∧ (reg.get i).name = name ∧ ∀ j < i, (reg.get j).name ≠ name

variable {reg : Registry} {name : Bytes} {i : ContextIdx}

theorem matches_iff (h : IsCStr 32 (reg.get i).name) (hname : 0 ∉ name) :
    (decide (i < reg.contextsCount) && strncmp (reg.get i).name name 32 == 0) = true ↔
      i < reg.contextsCount ∧ (reg.get i).name = name := by
  rw [Bool.and_eq_true, decide_eq_true_eq, beq_iff_eq, strncmp_eq_zero h.1 hname h.2]

/-- The search finds the first context of that name. -/
theorem getContextString_eq_some (h : ∀ i, IsCStr 32 (reg.get i).name) (hname : 0 ∉ name) :
    reg.getContextString name = some i ↔ reg.FirstNamed name i := by
  refine (List.find?_ofFn_eq_some_of_injective Function.injective_id).trans ?_
  simp only [id, matches_iff (h _) hname, FirstNamed, and_assoc, and_congr_right_iff]
  intro hi hn
  exact ⟨fun hall j hj he => hall j hj ⟨Nat.lt_trans hj hi, he⟩, fun hall j hj he => hall j hj he.2⟩

/-- The search finds none if there is none. -/
theorem getContextString_eq_none (h : ∀ i, IsCStr 32 (reg.get i).name) (hname : 0 ∉ name) :
    reg.getContextString name = none ↔ ∀ i : ContextIdx, i < reg.contextsCount →
    (reg.get i).name ≠ name := by
  rw [getContextString, List.find?_eq_none]
  simp only [List.mem_finRange, true_implies, matches_iff (h _) hname, not_and]

theorem getContextString_iff : reg.getContextString name = some i ↔
    (i < reg.contextsCount ∧ strncmp (reg.get i).name name 32 = 0) ∧
      ∀ j < i, j < reg.contextsCount → strncmp (reg.get j).name name 32 ≠ 0 := by
  refine (List.find?_ofFn_eq_some_of_injective Function.injective_id).trans ?_
  simp only [id, Bool.and_eq_true, decide_eq_true_eq, beq_iff_eq, not_and, ne_eq]

/-- More contexts that have no name change nothing for the search, if there was one. -/
theorem getContextString_of_blank {reg' : Registry} {b : ContextIdx}
    (hget : ∀ i, (reg'.get i).name = (reg.get i).name)
    (hcount : reg.contextsCount ≤ reg'.contextsCount)
    (hrest : ∀ i : ContextIdx, reg.contextsCount ≤ i → (reg.get i).name = [])
    (hb : b < reg.contextsCount) (hblank : (reg.get b).name = []) (name : Bytes) :
    reg'.getContextString name = reg.getContextString name := by
  cases h : reg.getContextString name with
  | some i =>
    obtain ⟨⟨hi, hm⟩, hfirst⟩ := getContextString_iff.mp h
    refine getContextString_iff.mpr ⟨⟨Nat.lt_of_lt_of_le hi hcount, by rw [hget]; exact hm⟩,
      fun j hj _ => ?_⟩
    rw [hget]
    exact hfirst j hj (Nat.lt_trans hj hi)
  | none =>
    rw [getContextString, List.find?_eq_none] at h ⊢
    simp only [List.mem_finRange, true_implies, Bool.and_eq_true, decide_eq_true_eq,
      beq_iff_eq, not_and] at h ⊢
    intro i _
    rw [hget]
    rcases Nat.lt_or_ge i reg.contextsCount with hi | hi
    · exact h i hi
    · rw [hrest i hi, ← hblank]
      exact h b hb

end Registry

end LwNBD
