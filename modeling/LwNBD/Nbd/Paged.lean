import LwNBD.Data.Overlay
import LwNBD.Nbd.BlockDevice

/-!
# Plugins that export pages

A card, or a disk, is an array of pages of one length, which are read and written whole. If a page
is a block of the export, it is a block device, whose content is the pages one after the other.

## The model

* `IsPaged` — the callbacks read and write pages; `pagesOf` — the bytes.

## What is proved

* `IsPaged.isBlockDevice` — such a plugin is a block device.
-/

namespace LwNBD

open Resumption

variable {β : Type}

/-- The bytes of the first `n` pages. -/
def pagesOf (page : ℕ → Bytes) (n : ℕ) : Bytes := (stretch page 0 n).flatten

/-- The plugin reads and writes pages, of which there are `n`, each as long as a block. -/
structure IsPaged (host : Env Call Resp β) (p : Plugin) (handle : Handle) (blocksize : UInt32)
    (page : β → ℕ → Bytes) (n : ℕ) : Prop where
  /-- Pages have bytes. -/
  pos : 0 < blocksize.toNat
  /-- The length of a page. -/
  length : ∀ b i, (page b i).length = blocksize.toNat
  /-- `pread` reads pages. -/
  pread : ∀ b count offset, offset.toNat + count.toNat ≤ n →
    (host b (.pread p handle count offset)).1 =
    ⟨0, (stretch (page b) offset.toNat count.toNat).flatten⟩ ∧
    page (host b (.pread p handle count offset)).2 = page b
  /-- `pwrite` writes pages. -/
  pwrite : ∀ b buf count offset, offset.toNat + count.toNat ≤ n →
    count.toNat * blocksize.toNat ≤ buf.length → (host b (.pwrite p handle buf count offset)).1 =
    (0 : ℤ) ∧ page (host b (.pwrite p handle buf count offset)).2 =
      overlay (page b) offset.toNat count.toNat (buf.page blocksize.toNat)
  /-- `flush` succeeds. -/
  flush : ∀ b, (host b (.flush p handle)).1 = (0 : ℤ) ∧ page (host b (.flush p handle)).2 = page b
  /-- Notes are nothing to it. -/
  note : ∀ b k, page (host b (.note k)).2 = page b
  /-- Nor are the server's variables. -/
  uninit : ∀ b k, page (host b (.uninit k)).2 = page b

section Pages

variable {page : ℕ → Bytes} {k o c n : ℕ}

theorem length_of_mem_stretch (h : ∀ i, (page i).length = k) :
    ∀ x ∈ stretch page o n, x.length = k := by
  intro x hx
  obtain ⟨i, -, rfl⟩ := List.mem_map.mp hx
  exact h _

theorem length_pagesOf (h : ∀ i, (page i).length = k) (n : ℕ) :
    (pagesOf page n).length = n * k := by
  rw [pagesOf, List.length_flatten_of (length_of_mem_stretch h), length_stretch]

theorem slice_pagesOf (h : ∀ i, (page i).length = k) (hle : o + c ≤ n) :
    (pagesOf page n).slice (o * k) (c * k) = (stretch page o c).flatten := by
  rw [pagesOf, ← List.flatten_slice (length_of_mem_stretch h), slice_stretch hle]

theorem pagesOf_overlay (h : ∀ i, (page i).length = k) (hle : o + c ≤ n) {buf : Bytes}
    (hbuf : c * k ≤ buf.length) :
    pagesOf (overlay page o c (buf.page k)) n = (pagesOf page n).overwrite (o * k)
    (buf.take (c * k)) := by
  have hpages : ∀ x ∈ stretch (buf.page k) 0 c, x.length = k := by
    intro x hx
    obtain ⟨i, hi, rfl⟩ := List.mem_map.mp hx
    have hlt : (i + 1) * k ≤ c * k := Nat.mul_le_mul_right k (List.mem_range.mp hi)
    rw [Nat.succ_mul] at hlt
    rw [Nat.zero_add]
    exact List.length_slice (Nat.le_trans hlt hbuf)
  rw [pagesOf, stretch_overlay_whole hle, List.flatten_overwrite (length_of_mem_stretch h) hpages,
    List.flatten_stretch_page]
  rfl

end Pages

variable {host : Env Call Resp β} {p : Plugin} {handle : Handle} {blocksize : UInt32}
  {page : β → ℕ → Bytes} {n : ℕ}

/-- A plugin that transfers whole pages is a block device. -/
theorem IsPaged.isBlockDevice (h : IsPaged host p handle blocksize page n) :
    IsBlockDevice host p handle blocksize fun b => pagesOf (page b) n where
  pread := by
    rintro b count offset r b' hr hle
    rw [length_pagesOf (h.length b)] at hle
    have hin := Nat.le_of_mul_le_mul_right hle h.pos
    obtain ⟨hread, hpage⟩ := h.pread b count offset hin
    rw [hr] at hread hpage
    dsimp only at hread hpage
    refine ⟨congrArg Pread.ret hread, ?_, congrArg (pagesOf · n) hpage⟩
    rw [slice_pagesOf (h.length b) hin]
    exact congrArg Pread.data hread
  pwrite := by
    rintro b buf count offset r b' hr hle hbuf
    rw [length_pagesOf (h.length b)] at hle
    have hin := Nat.le_of_mul_le_mul_right hle h.pos
    obtain ⟨hwrite, hpage⟩ := h.pwrite b buf count offset hin hbuf
    rw [hr] at hwrite hpage
    exact ⟨hwrite, (congrArg (pagesOf · n) hpage).trans (pagesOf_overlay (h.length b) hin hbuf)⟩
  flush := by
    rintro b r b' hr
    obtain ⟨hflush, hpage⟩ := h.flush b
    rw [hr] at hflush hpage
    exact ⟨hflush, congrArg (pagesOf · n) hpage⟩
  note b k := congrArg (pagesOf · n) (h.note b k)
  uninit b k := congrArg (pagesOf · n) (h.uninit b k)

end LwNBD
