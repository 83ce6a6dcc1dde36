import Mathlib.Algebra.Ring.Nat
import LwNBD.Core.Types
import LwNBD.Data.Slice
import LwNBD.Plugins.Query
import LwNBD.Resumption.Count

/-!
# The memory card plugin

`plugins/mcman/mcman_d.c`, which exports the memory cards of a PlayStation 2. A card is a flash
array: its pages are read and written one by one, but before a page is written the block it is in
has to be erased. So `mcman_pwrite` reads a block into a scratch buffer, replaces some of its pages,
and writes all of it; blocks that are written whole are not read.

## The model

* `Statics` — the static variables: one handle for each card, and, for both cards, the scratch
  buffer `bbuffer` and the number of pages in a block.
* `McCall`, `McResp` — what the plugin calls in MCMAN and SYSMEM, and the answers. What
  `McDataChecksum` makes of the 128 bytes it is pointed to is a parameter.
* `writeBlock`, `readBlock`, `injectPages`, `mcmanPread`, `mcmanPwrite`, `mcmanCtor` — the
  functions.

A pointer is an object and a place in it. Arithmetic on `int` that does not fit, accesses that are
not within their object, a division by zero, and a variable that was not written are `.undefined`.
-/

namespace LwNBD.Mcman

open Resumption

/-! ### The data -/

/-- `MAX_DEVICES`. -/
def MAX_DEVICES : ℕ := 2

instance : NeZero MAX_DEVICES := ⟨Nat.succ_ne_zero 1⟩

/-- `struct handle`. -/
structure Handle where
  /-- `device`. -/
  device : ℤ
  /-- `size`. -/
  size : Int64
  /-- `blocksize`, the number of bytes in a page. -/
  blocksize : UInt16
  deriving DecidableEq

/-- A pointer to an element of `handles`. -/
abbrev HandleIdx := Fin MAX_DEVICES

/-- The static variables. -/
structure Statics where
  /-- `handles`. -/
  handles : HandleIdx → Handle
  /-- What `bbuffer` points to; none if it is `NULL`. -/
  bbuffer : Option Bytes
  /-- `pagesPerBlock`. -/
  pagesPerBlock : UInt16

/-- The static variables as the loader leaves them. -/
def Statics.zero : Statics := ⟨fun _ => ⟨0, 0, 0⟩, none, 0⟩

/-- What is at `bbuffer`: nothing, if it is `NULL`. -/
def Statics.scratch (s : Statics) : Bytes := s.bbuffer.getD []

@[simp] theorem Statics.scratch_some (handles : HandleIdx → Handle) (b : Bytes) (n : UInt16) :
    (Statics.mk handles (some b) n).scratch = b := rfl

/-- An object in the memory of the I/O processor. Its pointers are 32 bits wide, so no object is
larger than `PTRDIFF_MAX`. -/
structure Object where
  /-- The bytes. -/
  bytes : Bytes
  /-- Their number. -/
  length_lt : bytes.length < 2 ^ 31

/-! ### Calls -/

/-- What `McGetCardSpec` returns, and what it stores. -/
structure CardSpec where
  /-- The result. -/
  ret : ℤ
  /-- `*pageLen`. -/
  pageLen : Int16
  /-- `*pagesPerBlock`. -/
  pagesPerBlock : UInt16
  /-- `*cardSize`, in pages. -/
  cardSize : Int32
  /-- `*flags`. -/
  flags : UInt8
  deriving DecidableEq

/-- What `McReadPage` returns, and what it stores. -/
structure PageRead where
  /-- The result. -/
  ret : ℤ
  /-- What it stored. -/
  data : Bytes
  deriving DecidableEq

/-- The calls. -/
inductive McCall where
  /-- `McDetectCard2(port, slot)`. -/
  | detectCard (port slot : ℤ)
  /-- `McGetCardSpec(port, slot, …)`. -/
  | getCardSpec (port slot : ℤ)
  /-- `AllocSysMemory(ALLOC_FIRST, size, NULL)`. -/
  | allocSysMemory (size : ℤ)
  /-- `McEraseBlock2(port, slot, block, NULL, NULL)`. -/
  | eraseBlock (port slot block : ℤ)
  /-- `McReadPage(port, slot, page, …)`. -/
  | readPage (port slot page : ℤ)
  /-- `McWritePage(port, slot, page, data, ecc)`. -/
  | writePage (port slot page : ℤ) (data ecc : Bytes)
  deriving DecidableEq

/-- The answers. Memory that is allocated holds anything. -/
abbrev McResp : McCall → Type
  | .detectCard .. | .eraseBlock .. | .writePage .. => ℤ
  | .getCardSpec .. => CardSpec
  | .allocSysMemory _ => Option (ℕ → UInt8)
  | .readPage .. => PageRead

/-- A function of the plugin, or a part of one. -/
abbrev Mc (α : Type) := Prog Statics McCall McResp α

/-! ### Blocks -/

/-- An `int` that was computed. -/
@[irreducible] def checked (n : ℤ) : Mc ℤ :=
  if -2 ^ 31 ≤ n ∧ n < 2 ^ 31 then pure n else .halt .undefined

/-- An unsigned number of any width, as an `int`. -/
@[irreducible] def asInt (n : ℕ) : ℤ := (n : ℤ).bmod (2 ^ 32)

section Blocks

variable (mcDataChecksum : Bytes → Vector UInt8 3)

/-- The checksums of the page at `place`, each of 128 bytes, stored at the start of `ecc`. -/
def checksums (buffer : Bytes) (place : ℕ) (ecc : Bytes) : Bytes :=
  (((ecc.overwrite 0 (mcDataChecksum (buffer.slice place 128)).toList).overwrite 3
    (mcDataChecksum (buffer.slice (place + 128) 128)).toList).overwrite 6
    (mcDataChecksum (buffer.slice (place + 256) 128)).toList).overwrite 9
    (mcDataChecksum (buffer.slice (place + 384) 128)).toList

/-- The round of `writeBlock` for page `j`. The checksums are of 512 bytes, however many there are
in a page. -/
def writeBlockPage (port block : ℤ) (buffer : Bytes) (pageSize ppb : ℕ) (j : ℕ) (ecc : Bytes) :
    Mc (Ctl Bytes ℤ) := do
  let place ← checked (j * pageSize)
  if place.toNat + 512 ≤ buffer.length then
    let ecc := checksums mcDataChecksum buffer place.toNat ecc
    let first ← checked (block * ppb)
    let page ← checked (first + j)
    if place.toNat + pageSize ≤ buffer.length then
      let result ← Prog.perform
          (McCall.writePage port 0 page (buffer.slice place.toNat pageSize) ecc)
      pure (if result ≠ 0 then .done result else .next ecc)
    else .halt .undefined
  else .halt .undefined

/-- `writeBlock`. -/
def writeBlock (port block : ℤ) (buffer : Bytes) (pageSize ppb : ℕ) : Mc ℤ := do
  let result ← Prog.perform (McCall.eraseBlock port 0 block)
  if result ≠ 0 then pure result
  else
    match ← Prog.count (writeBlockPage mcDataChecksum port block buffer pageSize ppb) ppb 0
      (List.replicate 16 0) with
    | .next _ => pure 0
    | .done result => pure result

/-- The round of `readBlock` for page `j`, with what is at `buffer`. -/
def readBlockPage (port block : ℤ) (pageSize ppb : ℕ) (j : ℕ) (buffer : Bytes) :
    Mc (Ctl Bytes (ℤ × Bytes)) := do
  let place ← checked (j * pageSize)
  let first ← checked (block * ppb)
  let page ← checked (first + j)
  let r ← Prog.perform (McCall.readPage port 0 page)
  if place.toNat + r.data.length ≤ buffer.length then
    let buffer := buffer.overwrite place.toNat r.data
    pure (if r.ret ≠ 0 then .done (r.ret, buffer) else .next buffer)
  else .halt .undefined

/-- `readBlock`, which returns its result and what is at `buffer`. With no page to read it returns a
variable that was not written. -/
def readBlock (port block : ℤ) (buffer : Bytes) (pageSize ppb : ℕ) : Mc (ℤ × Bytes) := do
  match ← Prog.count (readBlockPage port block pageSize ppb) ppb 0 buffer with
  | .next buffer => if ppb = 0 then .halt .undefined else pure (0, buffer)
  | .done r => pure r

/-- `memcpy(bbuffer + offset * pageSize, buffer, nPages * pageSize)`. -/
def injectBuffer (pageSize : ℕ) (offset nPages : ℤ) (buffer : Bytes) : Mc Unit := do
  let place ← checked (offset * pageSize)
  let size ← checked (nPages * pageSize)
  match (← Prog.read).bbuffer with
  | none => .halt .undefined
  | some scratch =>
    if 0 ≤ place ∧ 0 ≤ size ∧ place + size ≤ scratch.length ∧ size ≤ buffer.length then
      Prog.modify fun s =>
        { s with bbuffer := some (scratch.overwrite place.toNat (buffer.take size.toNat)) }
    else .halt .undefined

/-- `if ((offset != 0) || (nPages != ppb))`: what a block that is not going to be written whole
holds is read first. -/
def fetchBlock (port block : ℤ) (pageSize : ℕ) (offset nPages : ℤ) (ppb : ℕ) : Mc ℤ :=
  if offset ≠ 0 ∨ nPages ≠ ppb then do
    let r ← readBlock port block (← Prog.read).scratch pageSize ppb
    Prog.modify fun s => { s with bbuffer := s.bbuffer.map fun _ => r.2 }
    pure r.1
  else pure 0

/-- `injectPages`, where `buffer` is what is from the pointer on. -/
def injectPages (port block : ℤ) (pageSize : ℕ) (offset nPages : ℤ) (ppb : ℕ) (buffer : Bytes) :
    Mc ℤ := do
  let result ← fetchBlock port block pageSize offset nPages ppb
  if result ≠ 0 then pure result
  else do
    injectBuffer pageSize offset nPages buffer
    writeBlock mcDataChecksum port block (← Prog.read).scratch pageSize ppb

/-! ### The callbacks -/

/-- The variables of the loop of `mcman_pwrite`. -/
structure PwriteVars where
  /-- `i`. -/
  i : ℤ
  /-- `blockOffset`. -/
  blockOffset : ℤ
  /-- `remainingPages`. -/
  remainingPages : ℤ
  /-- `writtenPages`. -/
  writtenPages : ℤ
  /-- `result`. -/
  result : ℤ
  deriving DecidableEq

/-- A round of the loop of `mcman_pwrite`. The test compares `i` as the unsigned number it is as a
`uint32_t`. `nPages` is at most `remainingPages`, so that neither of the last two assignments
overflows. -/
def pwriteBlock (h : Handle) (buf : Bytes) (endBlock : ℕ) (x : PwriteVars) :
    Mc (Ctl PwriteVars ℤ) := do
  if (x.i % 2 ^ 32).toNat ≤ endBlock then
    let ppb := (← Prog.read).pagesPerBlock.toNat
    let nPages := if ppb - x.blockOffset ≤ x.remainingPages then ppb - x.blockOffset
      else x.remainingPages
    let place ← checked (x.writtenPages * h.blocksize.toNat)
    if 0 ≤ place ∧ place ≤ buf.length then
      let result ← injectPages mcDataChecksum h.device x.i h.blocksize.toNat
          x.blockOffset nPages ppb
        (buf.drop place.toNat)
      if result ≠ 0 then pure (.done result)
      else do
        let i ← checked (x.i + 1)
        pure (.next ⟨i, 0, x.remainingPages - nPages, x.writtenPages + nPages, result⟩)
    else .halt .undefined
  else pure (.done x.result)

/-- What the loop has for fuel: `i` takes every value of an `int` once at most. -/
def pwriteFuel : ℕ := 2 ^ 32 + 1

/-- `mcman_pwrite`. -/
def mcmanPwrite (handle : HandleIdx) (buf : Bytes) (count : UInt32)
    (offset : UInt64) (_flags : UInt32) : Mc ℤ := do
  let s ← Prog.read
  let pagesPerBlock := s.pagesPerBlock.toUInt64
  if pagesPerBlock = 0 then .halt .undefined
  else
    let startBlock := (offset / pagesPerBlock).toUInt32
    let endBlock := ((offset + count.toUInt64 - 1) / pagesPerBlock).toUInt32
    let blockOffset := offset &&& (pagesPerBlock - 1)
    Prog.loop pwriteFuel (pwriteBlock mcDataChecksum (s.handles handle) buf endBlock.toNat)
      ⟨asInt startBlock.toNat, asInt blockOffset.toNat, asInt count.toNat, 0, 0⟩

end Blocks

/-- The round of `mcman_pread` for page `i`, with what is at `buf`. -/
def preadPage (h : Handle) (offset : UInt64) (i : ℕ) (buf : Bytes) :
    Mc (Ctl Bytes (ℤ × Bytes)) := do
  let place ← checked (i * h.blocksize.toNat)
  let r ← Prog.perform (McCall.readPage h.device 0 (asInt (offset + i.toUInt64).toNat))
  if place.toNat + r.data.length ≤ buf.length then
    let buf := buf.overwrite place.toNat r.data
    if r.ret ≠ 0 then pure (.done (r.ret, buf))
    else do
      let _ ← checked (i + 1)
      pure (.next buf)
  else .halt .undefined

/-- `mcman_pread`, which returns its result and what is at `buf`. -/
def mcmanPread (handle : HandleIdx) (buf : Bytes) (count : UInt32)
    (offset : UInt64) (_flags : UInt32) :
    Mc (ℤ × Bytes) := do
  match ← Prog.count (preadPage ((← Prog.read).handles handle) offset) count.toNat 0 buf with
  | .next buf => pure (0, buf)
  | .done r => pure r

/-- `mcman_ctor`, which returns its result and what it makes of the context. `McGetCardSpec` stores
straight into the static variable. -/
def mcmanCtor (device : UInt8) (c : Context) : Mc (ℤ × Context) := do
  let _ ← Prog.perform (McCall.detectCard device.toNat 0)
  let spec ← Prog.perform (McCall.getCardSpec device.toNat 0)
  Prog.modify fun s => { s with pagesPerBlock := spec.pagesPerBlock }
  if spec.ret = 0 then
    if h : device.toNat < MAX_DEVICES then do
      let size : ℤ := spec.pageLen.toInt * spec.pagesPerBlock.toNat
      let memory ← Prog.perform (McCall.allocSysMemory size)
      Prog.modify fun s =>
        { s with
          handles := Function.update s.handles ⟨device.toNat, h⟩
            ⟨device.toNat, spec.cardSize.toInt64 * spec.pageLen.toInt64, spec.pageLen.toUInt16⟩
          bbuffer := memory.map fun m => (List.range size.toNat).map m }
      pure (0, { c with handle := device.toNat, name := literal ("mc" ++ toString device.toNat) })
    else .halt .undefined
  else pure (1, c)

/-! ### Numbers -/

theorem checked_eq {n : ℤ} (h : -2 ^ 31 ≤ n) (h' : n < 2 ^ 31) : checked n = pure n := by
  rw [checked, if_pos ⟨h, h'⟩]

theorem checked_undefined {n : ℤ} (h : ¬ (-2 ^ 31 ≤ n ∧ n < 2 ^ 31)) :
    checked n = .halt .undefined := by
  rw [checked, if_neg h]

theorem pwriteFuel_pos : ∃ n, pwriteFuel = n + 1 := ⟨2 ^ 32, rfl⟩

theorem asInt_eq {n : ℕ} (h : n < 2 ^ 31) : asInt n = n := by
  unfold asInt
  exact Int.bmod_eq_of_le (by omega) (by omega)

end LwNBD.Mcman
