import Mathlib.Algebra.Ring.Nat
import LwNBD.Data.Overlay
import LwNBD.Plugins.Query

/-!
# The memory plugin

`plugins/memory/memory.c`, which exports a slice of memory. Its callbacks are handed the slice and
compute addresses in it. But `memory_pwrite` copies to `&addr`, the variable it computed the address
in, so that it stores nothing where it should, and overruns the variable if there is more to copy
than an address has bytes. And the `memcpy` filter of `memory_query` copies as many bytes as its
value has, whatever the size of the slice.

## The model

* `MemoryConfig` — a slice of memory, with addresses of `W` bytes; `Ram` — the memory.
* `memoryPread`, `memoryPwrite` — the callbacks; a copy past the end of a variable is `.undefined`.
* `ramHost` — what the filters of `memory_query` do to the memory.
* `Stores`, `Confined` — what is asked of a write, and of a query.

## What is proved

* `memoryPwrite_stores_iff` — a write does what is asked only if there is nothing to do.
* `memoryQuery_confined_iff` — a query leaves the rest of the memory exactly if no value to be
  copied is longer than the slice.
-/

namespace LwNBD

open Resumption

/-- The memory. -/
abbrev Ram := ℕ → UInt8

/-- `struct memory_config`, where an `intptr_t` has `W` bytes. -/
structure MemoryConfig (W : ℕ) where
  /-- `base`, as an address. -/
  base : ℕ
  /-- `size`. -/
  size : ℕ
  /-- The slice is in the address space. -/
  fits : base + size ≤ 2 ^ (8 * W)

namespace MemoryConfig

variable {W : ℕ} (c : MemoryConfig W)

/-- `h->base + offset`, as an `intptr_t`. -/
def addr (offset : UInt64) : ℕ := (c.base + offset.toNat) % 2 ^ (8 * W)

/-- The address is in the slice. -/
def Inside (a : ℕ) : Prop := c.base ≤ a ∧ a < c.base + c.size

end MemoryConfig

/-! ### Reading and writing -/

section Callbacks

variable {W : ℕ} (c : MemoryConfig W) (ram : Ram)

/-- `memory_pread`: its result, and what it stores in the buffer. -/
def memoryPread (count : UInt32) (offset : UInt64) (_flags : UInt32) : ℤ × Bytes :=
  (0, stretch ram (c.addr offset) count.toNat)

/-- The bytes of a variable of `W` bytes, the lowest first. -/
def bytesOf (W n : ℕ) : Bytes := (List.range W).map fun i => UInt8.ofNat (n / 256 ^ i)

/-- `memory_pwrite`: its result, and the memory. The copy is to the variable `addr`. -/
def memoryPwrite (buf : Bytes) (count : UInt32) (offset : UInt64) (_flags : UInt32) :
    Outcome (ℤ × Ram) :=
  let addr := bytesOf W (c.addr offset)
  if count.toNat ≤ addr.length then
    let _addr := addr.overwrite 0 (buf.take count.toNat)
    .ret (0, ram)
  else .halt .undefined

/-- What is asked of a write of `buf` at `offset`: the range then holds it, other ranges are as they
were, and so is every other byte. -/
structure Stores (buf : Bytes) (count : UInt32) (offset : UInt64) (ram' : Ram) : Prop where
  /-- The bytes are read back. -/
  same : (memoryPread c ram' count offset 0).2 = buf
  /-- Other ranges are as they were. -/
  others : ∀ (count' : UInt32) (offset' : UInt64), offset'.toNat + count'.toNat ≤ c.size →
    offset'.toNat + count'.toNat ≤ offset.toNat ∨ offset.toNat + count.toNat ≤ offset'.toNat →
    (memoryPread c ram' count' offset' 0).2 = (memoryPread c ram count' offset' 0).2
  /-- Every other byte is. -/
  outside : ∀ a, ¬ (c.base + offset.toNat ≤ a ∧ a < c.base + offset.toNat + count.toNat) →
    ram' a = ram a

/-- **A write does what is asked** exactly when the range holds the bytes already, and they are no
more than an address has. -/
theorem memoryPwrite_stores_iff (buf : Bytes) (count : UInt32) (offset : UInt64) (flags : UInt32) :
    (∃ ram', memoryPwrite c ram buf count offset flags = .ret (0, ram') ∧
      Stores c ram buf count offset ram') ↔ (memoryPread c ram count offset 0).2 = buf ∧
      count.toNat ≤ W := by
  have hlen : (bytesOf W (c.addr offset)).length = W := by simp [bytesOf]
  unfold memoryPwrite
  dsimp only
  rw [hlen]
  constructor
  · rintro ⟨ram', hret, hstores⟩
    split_ifs at hret with hcount
    cases hret
    exact ⟨hstores.same, hcount⟩
  · rintro ⟨hsame, hcount⟩
    rw [if_pos hcount]
    exact ⟨ram, rfl, hsame, fun _ _ _ _ => rfl, fun _ _ => rfl⟩

end Callbacks

/-- A slice of 512 bytes. -/
def Sample.slice : MemoryConfig 8 := ⟨4096, 512, by decide⟩

/-- **A byte that is written is not stored.** -/
theorem memoryPwrite_not_stored : ¬ ∃ ram', memoryPwrite Sample.slice (fun _ => 0)
    [1] 1 0 0 = .ret (0, ram') ∧ Stores Sample.slice (fun _ => 0) [1] 1 0 ram' := by
  rintro ⟨ram', hret, hstores⟩
  cases hret
  exact absurd hstores.same (by decide)

/-! ### Queries -/

section Queries

variable {W : ℕ} (c : MemoryConfig W)

/-- What the filters do to the memory. They make no other calls. -/
def ramHost : Env QueryCall QueryResp Ram
  | ram, .memset ch => ((), overlay ram c.base c.size fun _ => ch)
  | ram, .memcpy val => ((), overlay ram c.base val.length fun i => val.getD i 0)
  | ram, .param _ => (([], none), ram)
  | ram, .cmd .. => (⟨0, [], 0⟩, ram)
  | ram, .mcinfoCmd | ram, .kelfbind _ => (0, ram)

/-- What one parameter does. -/
def filterRam (param : Param) (ram : Ram) : Ram :=
  if param.1 = literal "bzero" then overlay ram c.base c.size fun _ => 0
  else if param.1 = literal "memset" then
    match param.2 with
    | none => ram
    | some val => overlay ram c.base c.size fun _ => val.headD 0
  else if param.1 = literal "memcpy" then
    match param.2 with
    | none => ram
    | some val =>
      overlay (overlay ram c.base c.size fun _ => 0) c.base val.length fun i => val.getD i 0
  else ram

theorem wp_memoryFilter {params : List Param} {leftover : ℕ → Param} {i : ℕ}
    (hi : i < params.length) (s : CommandStatics) (ram : Ram) :
    wp (handed params leftover (ramHost c)) (memoryFilter i)
      (fun o _ ram' _ => o = .ret () ∧ ram' = filterRam c params[i] ram) s ram := by
  have hcall : handed params leftover (ramHost c) ram (.param i) = (params[i], ram) := by
    rw [handed, List.getD_eq_getElem?_getD, List.getElem?_eq_getElem hi]
    rfl
  unfold memoryFilter paramAt filterRam
  rw [wp_bind, wp_perform, Post.seq_ret, hcall]
  dsimp only
  split_ifs with hzero hset hcpy
  · exact ⟨rfl, rfl⟩
  · cases params[i].2 with
    | none => exact ⟨rfl, rfl⟩
    | some val => exact ⟨rfl, rfl⟩
  · cases params[i].2 with
    | none => exact ⟨rfl, rfl⟩
    | some val => exact ⟨rfl, rfl⟩
  · exact ⟨rfl, rfl⟩

/-- What a query does: its parameters are processed from the last to the first. -/
theorem wp_memoryQuery (params : List Param) (leftover : ℕ → Param)
    (s : CommandStatics) (ram : Ram) :
    wp (handed params leftover (ramHost c)) (memoryQuery params.length)
      (fun o _ ram' _ => o = .ret 0 ∧ ram' = params.foldr (filterRam c) ram) s ram := by
  have hwhile : ∀ i ≤ params.length, ∀ s ram, wp (handed params leftover (ramHost c))
      (whileParams memoryFilter i) (fun o _ ram' _ => o = .ret () ∧
      ram' = (params.take i).foldr (filterRam c) ram) s ram := by
    intro i
    induction i with
    | zero => exact fun _ s ram => ⟨rfl, rfl⟩
    | succ i ih =>
      intro hi s ram
      rw [whileParams, wp_bind]
      refine wp_mono _ ?_ (wp_memoryFilter c (Nat.lt_of_succ_le hi) s ram)
      rintro o s' ram' t ⟨rfl, rfl⟩
      rw [Post.seq_ret]
      refine wp_mono _ ?_ (ih (Nat.le_of_succ_le hi) s' _)
      rintro o' s'' ram'' t' ⟨rfl, rfl⟩
      refine ⟨rfl, ?_⟩
      rw [List.take_add_one, List.getElem?_eq_getElem (Nat.lt_of_succ_le hi), List.foldr_append]
      rfl
  unfold memoryQuery
  rw [Int.toNat_natCast, wp_bind]
  refine wp_mono _ ?_ (hwhile params.length (Nat.le_refl _) s ram)
  rintro o s' ram' t ⟨rfl, rfl⟩
  rw [Post.seq_ret, wp_pure, Post.after_apply, List.take_length]
  exact ⟨rfl, rfl⟩

/-- The value of a parameter fits in the slice if it is to be copied. -/
def CopyFits (param : Param) : Prop :=
  ∀ val, param = (literal "memcpy", some val) → val.length ≤ c.size

/-- A parameter that fits leaves the rest of the memory. -/
theorem filterRam_outside {param : Param} (hfits : CopyFits c param) (ram : Ram) {a : ℕ}
    (ha : ¬ c.Inside a) : filterRam c param ram a = ram a := by
  obtain ⟨key, value⟩ := param
  unfold filterRam
  dsimp only
  split_ifs with hzero hset hcpy
  · exact overlay_out ha
  · cases value with
    | none => rfl
    | some val => exact overlay_out ha
  · cases value with
    | none => rfl
    | some val =>
      have hlen := hfits val (by rw [← hcpy])
      have hval : ¬ (c.base ≤ a ∧ a < c.base + val.length) := fun h => ha ⟨h.1, by omega⟩
      exact (overlay_out hval).trans (overlay_out ha)
  · rfl

/-- What a parameter leaves in the slice depends on what was in it. -/
theorem filterRam_inside (param : Param) {ram ram' : Ram} (h : ∀ a, c.Inside a → ram a = ram' a)
    {a : ℕ} (ha : c.Inside a) : filterRam c param ram a = filterRam c param ram' a := by
  have hfill : ∀ ch : UInt8, overlay ram c.base c.size (fun _ => ch) a = overlay ram' c.base
      c.size (fun _ => ch) a :=
    fun ch => by rw [overlay_in ha, overlay_in ha]
  obtain ⟨key, value⟩ := param
  unfold filterRam
  dsimp only
  split_ifs with hzero hset hcpy
  · exact hfill 0
  · cases value with
    | none => exact h a ha
    | some val => exact hfill _
  · cases value with
    | none => exact h a ha
    | some val =>
      dsimp only
      by_cases hval : c.base ≤ a ∧ a < c.base + val.length
      · rw [overlay_in hval, overlay_in hval]
      · rw [overlay_out hval, overlay_out hval, hfill 0]
  · exact h a ha

/-- A value that does not fit is written past the slice. -/
theorem filterRam_past {val : Bytes} (hlen : c.size < val.length) (ram : Ram) :
    filterRam c (literal "memcpy", some val) ram (c.base + c.size) = val.getD c.size 0 := by
  have hzero : literal "memcpy" ≠ literal "bzero" := by decide
  have hset : literal "memcpy" ≠ literal "memset" := by decide
  unfold filterRam
  dsimp only
  rw [if_neg hzero, if_neg hset, if_pos rfl, overlay_in ⟨by omega, by omega⟩,
    Nat.add_sub_cancel_left]

/-- Parameters that fit leave the rest of the memory. -/
theorem foldr_outside {params : List Param} (hfits : ∀ param ∈ params, CopyFits c param) (ram : Ram)
    {a : ℕ} (ha : ¬ c.Inside a) : params.foldr (filterRam c) ram a = ram a := by
  induction params with
  | nil => rfl
  | cons param params ih =>
    rw [List.forall_mem_cons] at hfits
    rw [List.foldr_cons, filterRam_outside c hfits.1 _ ha]
    exact ih hfits.2

theorem foldr_inside (params : List Param) {ram ram' : Ram} (h : ∀ a, c.Inside a → ram a = ram' a) :
    ∀ a, c.Inside a → params.foldr (filterRam c) ram a = params.foldr (filterRam c) ram' a := by
  induction params with
  | nil => exact h
  | cons param params ih => exact fun a ha => filterRam_inside c param ih ha

/-- If a value does not fit, the byte past the slice is what the parameters say, whatever it was. -/
theorem foldr_past {params : List Param} {param : Param} (hmem : param ∈ params)
    (hlong : ¬ CopyFits c param) :
    ∃ v, ∀ ram, params.foldr (filterRam c) ram (c.base + c.size) = v := by
  have hpast : ¬ c.Inside (c.base + c.size) := fun h => Nat.lt_irrefl _ h.2
  induction params with
  | nil => cases hmem
  | cons first params ih =>
    by_cases hfirst : CopyFits c first
    · have hrest : param ∈ params := by
        rcases List.mem_cons.mp hmem with rfl | h
        · exact absurd hfirst hlong
        · exact h
      obtain ⟨v, hv⟩ := ih hrest
      exact ⟨v, fun ram => (filterRam_outside c hfirst _ hpast).trans (hv ram)⟩
    · unfold CopyFits at hfirst
      obtain ⟨val, hval⟩ := not_forall.mp hfirst
      obtain ⟨rfl, hlen⟩ := Classical.not_imp.mp hval
      exact ⟨val.getD c.size 0, fun ram => filterRam_past c (Nat.not_le.mp hlen) _⟩

/-- What is asked of a query: it returns, no byte outside the slice is changed, and the bytes inside
depend on nothing but the parameters and what was inside. -/
def Confined (params : List Param) : Prop :=
  ∀ (leftover : ℕ → Param) (s : CommandStatics) (ram : Ram),
  let x := (memoryQuery params.length).run (handed params leftover (ramHost c)) s ram
  x.out = .ret 0 ∧ (∀ a, ¬ c.Inside a → x.env a = ram a) ∧
    ∀ (leftover' : ℕ → Param) (s' : CommandStatics) (ram' : Ram),
      (∀ a, c.Inside a → ram a = ram' a) → ∀ a, c.Inside a →
      x.env a = ((memoryQuery params.length).run (handed params leftover' (ramHost c)) s' ram').env
      a

/-- **A query is confined to the slice** exactly when every value to be copied fits in it. -/
theorem memoryQuery_confined_iff (params : List Param) :
    Confined c params ↔ ∀ val, (literal "memcpy", some val) ∈ params → val.length ≤ c.size := by
  have hiff : (∀ val, (literal "memcpy", some val) ∈ params → val.length ≤ c.size) ↔
      ∀ param ∈ params, CopyFits c param :=
    ⟨fun h param hmem val hval => h val (hval ▸ hmem), fun h val hmem => h _ hmem val rfl⟩
  rw [hiff]
  constructor
  · intro h param hmem
    by_contra hlong
    obtain ⟨v, hv⟩ := foldr_past c hmem hlong
    have hpast : ¬ c.Inside (c.base + c.size) := fun h => Nat.lt_irrefl _ h.2
    -- a memory that holds something else past the slice
    obtain ⟨u, hu⟩ : ∃ u : UInt8, u ≠ v := by
      by_cases hzero : v = 0
      · exact ⟨1, by rw [hzero]; decide⟩
      · exact ⟨0, fun h => hzero h.symm⟩
    obtain ⟨-, hout, -⟩ := h (fun _ => ([], none)) ⟨[], 0, none⟩ fun _ => u
    have hrun := (wp_memoryQuery c params (fun _ => ([], none)) ⟨[], 0, none⟩ fun _ => u).2
    rw [hrun] at hout
    exact hu ((hout _ hpast).symm.trans (hv _))
  · intro hfits leftover s ram
    obtain ⟨hret, hram⟩ := wp_memoryQuery c params leftover s ram
    refine ⟨hret, fun a ha => ?_, fun leftover' s' ram' h a ha => ?_⟩
    · rw [hram, foldr_outside c hfits ram ha]
    · rw [hram, (wp_memoryQuery c params leftover' s' ram').2]
      exact foldr_inside c params h a ha

end Queries

/-- **A value longer than the slice** is written past it. -/
theorem memoryQuery_not_confined :
    ¬ Confined Sample.slice [(literal "memcpy", some (List.replicate 513 65))] := by
  intro h
  obtain ⟨-, hout, -⟩ := h (fun _ => ([], none)) ⟨[], 0, none⟩ fun _ => 0
  have hrun :=
    (wp_memoryQuery Sample.slice [(literal "memcpy", some (List.replicate 513 65))]
    (fun _ => ([], none)) ⟨[], 0, none⟩ fun _ => 0).2
  have hlong : Sample.slice.size < (List.replicate 513 (65 : UInt8)).length := by
    rw [List.length_replicate]
    decide
  have hpast := hout (Sample.slice.base + Sample.slice.size) fun h => Nat.lt_irrefl _ h.2
  rw [hrun, List.foldr_cons, filterRam_past Sample.slice hlong, List.getD_eq_getElem?_getD,
    List.getElem?_replicate_of_lt (by decide)] at hpast
  exact absurd hpast (by decide)

end LwNBD
