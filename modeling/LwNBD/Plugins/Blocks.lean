import LwNBD.Plugins.Mcman
import LwNBD.Data.Overlay
import Mathlib.Data.Nat.Bitwise

/-!
# The blocks of a write

`mcman_pwrite` goes through the blocks that its pages lie in. The first of them may be written from
some page on, the last up to some page, and the others are written whole.

## The model

* `Ready` — what the code relies on: a number of pages in a block that is a power of two, and a
  scratch buffer that holds a block.
* `Checkable` — the checksums of the pages of a block are of bytes that the scratch buffer has.
* `reached` — the page that is written next when it is block `b`'s turn.

## What is proved

* `mcmanPwrite_eq` — what the loop starts from, for all arguments.
* `wp_pwriteLoop` — the rule for the loop: its rounds inject, block by block, the pages between
  `reached b` and `reached (b + 1)`.
-/

namespace LwNBD.Mcman

open Resumption

/-- What the code relies on when it writes to the card of a handle. -/
structure Ready (s : Statics) (d : HandleIdx) : Prop where
  /-- The mask that gives the place in a block is one less than a power of two. -/
  power : ∃ k, s.pagesPerBlock.toNat = 2 ^ k
  /-- The scratch buffer holds a block. -/
  scratch : ∃ b, s.bbuffer = some b ∧
    s.pagesPerBlock.toNat * (s.handles d).blocksize.toNat ≤ b.length

theorem Ready.pos {s : Statics} {d : HandleIdx} (h : Ready s d) : 0 < s.pagesPerBlock.toNat := by
  obtain ⟨k, hk⟩ := h.power
  rw [hk]
  exact Nat.two_pow_pos k

/-- No block is larger than the number of its first page leaves room for. -/
theorem Ready.block_fits {s : Statics} {d : HandleIdx} (h : Ready s d) {b : ℕ}
    (hb : b * s.pagesPerBlock.toNat < 2 ^ 31) :
    b * s.pagesPerBlock.toNat + s.pagesPerBlock.toNat ≤ 2 ^ 31 := by
  obtain ⟨k, hk⟩ := h.power
  have hlt := s.pagesPerBlock.toNat_lt
  rw [hk] at hb hlt ⊢
  have hk' : k < 16 := (Nat.pow_lt_pow_iff_right (by omega)).mp hlt
  have hsplit : 2 ^ 31 = 2 ^ (31 - k) * 2 ^ k := by
    rw [← Nat.pow_add, Nat.sub_add_cancel (by omega)]
  rw [hsplit] at hb ⊢
  rw [← Nat.succ_mul]
  exact Nat.mul_le_mul_right _ (Nat.lt_of_mul_lt_mul_right hb)

theorem Ready.block_lt {s : Statics} {d : HandleIdx} (h : Ready s d) :
    s.pagesPerBlock.toNat * (s.handles d).blocksize.toNat < 2 ^ 31 := by
  obtain ⟨k, hk⟩ := h.power
  have hlt := s.pagesPerBlock.toNat_lt
  rw [hk] at hlt ⊢
  have hk' : k < 16 := (Nat.pow_lt_pow_iff_right (by omega)).mp hlt
  have hppb : 2 ^ k ≤ 2 ^ 15 := Nat.pow_le_pow_right (by omega) (by omega)
  calc 2 ^ k * (s.handles d).blocksize.toNat ≤ 2 ^ 15 * (2 ^ 16 - 1) :=
        Nat.mul_le_mul hppb (by have := (s.handles d).blocksize.toNat_lt; omega)
    _ < 2 ^ 31 := by omega

/-- What reading and writing leave: all but the content of the scratch buffer. -/
structure Kept (s s' : Statics) : Prop where
  /-- The handles. -/
  handles : s'.handles = s.handles
  /-- The number of pages in a block. -/
  pagesPerBlock : s'.pagesPerBlock = s.pagesPerBlock
  /-- The size of the scratch buffer. -/
  size : s'.bbuffer.map List.length = s.bbuffer.map List.length

theorem Kept.refl (s : Statics) : Kept s s := ⟨rfl, rfl, rfl⟩

theorem Kept.trans {s s' s'' : Statics} (h : Kept s s') (h' : Kept s' s'') : Kept s s'' :=
  ⟨h'.handles.trans h.handles, h'.pagesPerBlock.trans h.pagesPerBlock, h'.size.trans h.size⟩

theorem Kept.ready {s s' : Statics} {d : HandleIdx} (h : Kept s s') (hs : Ready s d) :
    Ready s' d := by
  obtain ⟨b, hb, hlen⟩ := hs.scratch
  have hsize := h.size
  rw [hb, Option.map_some, Option.map_eq_some_iff] at hsize
  obtain ⟨b', hb', hlen'⟩ := hsize
  refine ⟨h.pagesPerBlock ▸ hs.power, b', hb', ?_⟩
  rw [h.pagesPerBlock, h.handles, hlen']
  exact hlen

theorem Kept.length_scratch {s s' : Statics} (h : Kept s s') :
    s'.scratch.length = s.scratch.length := by
  have hsize := h.size
  unfold Statics.scratch
  cases hb : s.bbuffer with
  | none =>
    rw [hb, Option.map_none, Option.map_eq_none_iff] at hsize
    rw [hsize]
  | some b =>
    rw [hb, Option.map_some, Option.map_eq_some_iff] at hsize
    obtain ⟨b', hb', hlen⟩ := hsize
    rw [hb']
    exact hlen

theorem Kept.scratch {s s' : Statics} {d : HandleIdx} (h : Kept s s') (hs : Ready s d) :
    ∃ b, s'.bbuffer = some b ∧
    s.pagesPerBlock.toNat * (s.handles d).blocksize.toNat ≤ b.length := by
  obtain ⟨b, hb, hlen⟩ := (h.ready hs).scratch
  rw [h.handles, h.pagesPerBlock] at hlen
  exact ⟨b, hb, hlen⟩

/-- The checksums of the pages of a block are of bytes that a buffer of this size has: those of the
last page, of the 512 bytes from its start on. -/
def Checkable (ppb pageLen size : ℕ) : Prop := (ppb - 1) * pageLen + 512 ≤ size

theorem Checkable.page {ppb pageLen size j : ℕ} (h : Checkable ppb pageLen size) (hj : j < ppb) :
    j * pageLen + 512 ≤ size := by
  have hle : j * pageLen ≤ (ppb - 1) * pageLen := Nat.mul_le_mul_right pageLen (by omega)
  unfold Checkable at h
  omega

/-- Of a page of 512 bytes and more they lie in a buffer that holds a block. -/
theorem checkable_of_le {ppb pageLen size : ℕ} (hppb : 0 < ppb) (hpage : 512 ≤ pageLen)
    (hsize : ppb * pageLen ≤ size) : Checkable ppb pageLen size := by
  have hsplit : ppb * pageLen = (ppb - 1) * pageLen + pageLen := by
    rw [← Nat.succ_mul, Nat.succ_eq_add_one, Nat.sub_add_cancel hppb]
  unfold Checkable
  omega

/-- The page that is written next when it is block `b`'s turn. -/
def reached (offset count ppb b : ℕ) : ℕ := min (offset + count) (max offset (b * ppb))

/-- The last block, as the code finds it: unsigned, of 64 bits, and cut to 32. -/
def lastBlock (offset count ppb : ℕ) : ℕ := (offset + count + (2 ^ 64 - 1)) % 2 ^ 64 / ppb % 2 ^ 32

section Arithmetic

variable {offset count ppb b : ℕ}

theorem lastBlock_eq (hcount : 0 < count) (h : offset + count ≤ 2 ^ 64)
    (h' : (offset + count - 1) / ppb < 2 ^ 32) :
    lastBlock offset count ppb = (offset + count - 1) / ppb := by
  have hmod : (offset + count + (2 ^ 64 - 1)) % 2 ^ 64 = offset + count - 1 := by omega
  rw [lastBlock, hmod, Nat.mod_eq_of_lt h']

/-- Where a block starts, if it has a page of the range. -/
theorem block_start (hppb : 0 < ppb) (hcount : 0 < count) (hfirst : offset / ppb ≤ b)
    (hlast : b ≤ (offset + count - 1) / ppb) : b * ppb < offset + count ∧
    offset < b * ppb + ppb := by
  have h := (Nat.le_div_iff_mul_le hppb).mp hlast
  have h' := (Nat.div_lt_iff_lt_mul hppb).mp (Nat.lt_succ_of_le hfirst)
  rw [Nat.succ_mul] at h'
  omega

theorem reached_first : reached offset count ppb (offset / ppb) = offset := by
  have h := Nat.div_mul_le_self offset ppb
  unfold reached
  omega

theorem reached_last (hppb : 0 < ppb) (hcount : 0 < count) :
    reached offset count ppb ((offset + count - 1) / ppb + 1) = offset + count := by
  have h := (Nat.div_lt_iff_lt_mul hppb).mp (Nat.lt_succ_self ((offset + count - 1) / ppb))
  rw [Nat.succ_eq_add_one] at h
  unfold reached
  omega

theorem reached_block (hppb : 0 < ppb) (hcount : 0 < count) (hfirst : offset / ppb ≤ b)
    (hlast : b ≤ (offset + count - 1) / ppb) :
    reached offset count ppb b = max offset (b * ppb) ∧
      reached offset count ppb (b + 1) = min (offset + count) (b * ppb + ppb) := by
  obtain ⟨h, h'⟩ := block_start hppb hcount hfirst hlast
  unfold reached
  rw [Nat.succ_mul]
  omega

/-- What is left of the range is enough for the stretch of a block. -/
theorem length_left (hppb : 0 < ppb) (hcount : 0 < count) (hfirst : offset / ppb ≤ b)
    (hlast : b ≤ (offset + count - 1) / ppb) {buf : Bytes} {n : ℕ} (hbuf : buf.length = count * n) :
    (reached offset count ppb (b + 1) - reached offset count ppb b) * n ≤
      (buf.drop ((reached offset count ppb b - offset) * n)).length := by
  obtain ⟨hb, hb'⟩ := block_start hppb hcount hfirst hlast
  obtain ⟨hr, hr'⟩ := reached_block hppb hcount hfirst hlast
  rw [List.length_drop, hbuf, ← Nat.sub_mul]
  exact Nat.mul_le_mul_right _ (by omega)

end Arithmetic

section Rules

variable (mcDataChecksum : Bytes → Vector UInt8 3) {σ : Type} {env : Env McCall McResp σ}
  {s : Statics} {w : σ} {d : HandleIdx} {buf : Bytes}

/-- What the loop starts from, for all arguments. -/
theorem mcmanPwrite_eq (count : UInt32) (offset : UInt64) (flags : UInt32)
    (Q : Post Statics McCall McResp σ ℤ) (hs : Ready s d) :
    wp env (mcmanPwrite mcDataChecksum d buf count offset flags) Q s w ↔
      wp env (Prog.loop pwriteFuel (pwriteBlock mcDataChecksum (s.handles d) buf
          (lastBlock offset.toNat count.toNat s.pagesPerBlock.toNat))
        ⟨asInt (offset.toNat / s.pagesPerBlock.toNat % 2 ^ 32),
        (offset.toNat % s.pagesPerBlock.toNat : ℕ),
          asInt count.toNat, 0, 0⟩) Q s w := by
  have hpos := hs.pos
  obtain ⟨k, hk⟩ := hs.power
  have hlt := s.pagesPerBlock.toNat_lt
  have hppb : s.pagesPerBlock.toUInt64.toNat = s.pagesPerBlock.toNat := UInt16.toNat_toUInt64 _
  have hne : s.pagesPerBlock.toUInt64 ≠ 0 := by
    intro h
    rw [h] at hppb
    simp at hppb
    omega
  have hmask : (offset &&& (s.pagesPerBlock.toUInt64 - 1)).toNat = offset.toNat %
      s.pagesPerBlock.toNat := by
    have hone : (1 : UInt64) ≤ s.pagesPerBlock.toUInt64 := by
      rw [UInt64.le_iff_toNat_le, hppb]
      exact hpos
    rw [UInt64.toNat_and, UInt64.toNat_sub_of_le _ _ hone, hppb, hk]
    exact Nat.and_two_pow_sub_one_eq_mod _ _
  have hstart : (offset / s.pagesPerBlock.toUInt64).toUInt32.toNat = offset.toNat /
      s.pagesPerBlock.toNat % 2 ^ 32 := by
    rw [UInt64.toNat_toUInt32, UInt64.toNat_div, hppb]
  have hend : ((offset + count.toUInt64 - 1) / s.pagesPerBlock.toUInt64).toUInt32.toNat =
      lastBlock offset.toNat count.toNat s.pagesPerBlock.toNat := by
    have hsum : (offset + count.toUInt64 - 1).toNat = (offset.toNat + count.toNat + (2 ^ 64 - 1)) %
        2 ^ 64 := by
      rw [UInt64.toNat_sub, UInt64.toNat_add, UInt32.toNat_toUInt64, UInt64.toNat_one]
      omega
    rw [UInt64.toNat_toUInt32, UInt64.toNat_div, hppb, hsum, lastBlock]
  have hoff : asInt (offset.toNat % s.pagesPerBlock.toNat) =
      (offset.toNat % s.pagesPerBlock.toNat : ℕ) :=
    asInt_eq (Nat.lt_trans (Nat.mod_lt _ hpos) (by omega))
  unfold mcmanPwrite
  rw [wp_bind, wp_read, Post.seq_ret, if_neg hne, Post.after_nil]
  dsimp only
  rw [hmask, hstart, hend, hoff]

/-! ### The loop -/

/-- The variables of the loop when it is block `b`'s turn. -/
def PwriteVars.at (offset count ppb b : ℕ) : PwriteVars :=
  ⟨b, (reached offset count ppb b - b * ppb : ℕ), (offset + count - reached offset count ppb b : ℕ),
    (reached offset count ppb b - offset : ℕ), 0⟩

/-- What is to be shown of the injection into block `b`, after calls `h`: the loop is left if it
fails, and else goes on with the next block, unless the number of that is no `int`. -/
def blockPost (Q : Post Statics McCall McResp σ ℤ)
    (I : ℕ → Statics → σ → List (Event McCall McResp) → Prop) (b : ℕ)
    (h : List (Event McCall McResp)) : Post Statics McCall McResp σ ℤ := fun o s w t =>
  match o with
  | .ret r =>
    if r ≠ 0 then Q (.ret r) s w (h ++ t)
    else if b + 1 < 2 ^ 31 then I (b + 1) s w (h ++ t)
    else Q (.halt .undefined) s w (h ++ t)
  | .halt e => Q (.halt e) s w (h ++ t)

variable {offset count ppb : ℕ} {h : Handle}

theorem PwriteVars.at_first : PwriteVars.at offset count ppb (offset / ppb) =
    ⟨(offset / ppb : ℕ), (offset % ppb : ℕ), count, 0, 0⟩ := by
  have hmod : offset - offset / ppb * ppb = offset % ppb := by rw [Nat.mod_eq_sub, Nat.mul_comm]
  rw [PwriteVars.at, reached_first, hmod, Nat.add_sub_cancel_left, Nat.sub_self]
  rfl

theorem PwriteVars.at_next (hppb : 0 < ppb) (hcount : 0 < count) {b : ℕ} (hfirst : offset / ppb ≤ b)
    (hlast : b ≤ (offset + count - 1) / ppb) :
    (⟨(b : ℤ) + 1, 0, (offset + count - reached offset count ppb b : ℕ) -
        (reached offset count ppb (b + 1) - reached offset count ppb b : ℕ),
      (reached offset count ppb b - offset : ℕ) +
      (reached offset count ppb (b + 1) - reached offset count ppb b : ℕ),
      0⟩ : PwriteVars) = .at offset count ppb (b + 1) := by
  obtain ⟨hlo, hhi⟩ := block_start hppb hcount hfirst hlast
  obtain ⟨hr, hr'⟩ := reached_block hppb hcount hfirst hlast
  have hstart : reached offset count ppb (b + 1) - (b + 1) * ppb = 0 := by
    rw [Nat.succ_mul]
    omega
  rw [PwriteVars.at, hstart, PwriteVars.mk.injEq]
  refine ⟨by push_cast; rfl, rfl, by omega, by omega, rfl⟩

/-- A round for a block that has a page of the range. -/
theorem wp_pwriteBlock (hppb : 0 < ppb) (hcount : 0 < count) {b : ℕ} (hfirst : offset / ppb ≤ b)
    (hlast : b ≤ (offset + count - 1) / ppb) (hb : b < 2 ^ 31)
    (hlen : buf.length = count * h.blocksize.toNat) (hlt : buf.length < 2 ^ 31)
    {I : ℕ → Statics → σ → List (Event McCall McResp) → Prop} {Q : Post Statics McCall McResp σ ℤ}
    {t : List (Event McCall McResp)} (hs : s.pagesPerBlock.toNat = ppb)
    (hinject : wp env (injectPages mcDataChecksum h.device b h.blocksize.toNat
        (reached offset count ppb b - b * ppb : ℕ)
        (reached offset count ppb (b + 1) - reached offset count ppb b : ℕ) ppb
        (buf.drop ((reached offset count ppb b - offset) * h.blocksize.toNat)))
        (blockPost Q I b t) s w) :
    wp env (pwriteBlock mcDataChecksum h buf ((offset + count - 1) / ppb) (.at offset count ppb b))
      (Q.round (fun x s w t' => x = .at offset count ppb (b + 1) ∧ b + 1 < 2 ^ 31 ∧
      I (b + 1) s w t') t) s w := by
  obtain ⟨hlo, hhi⟩ := block_start hppb hcount hfirst hlast
  obtain ⟨hr, hr'⟩ := reached_block hppb hcount hfirst hlast
  have htest : ((b : ℤ) % 2 ^ 32).toNat = b := by omega
  have hplace : (((reached offset count ppb b - offset : ℕ) : ℤ) * h.blocksize.toNat) =
      ((reached offset count ppb b - offset) * h.blocksize.toNat : ℕ) := by push_cast; rfl
  have hle : (reached offset count ppb b - offset) * h.blocksize.toNat ≤ buf.length := by
    rw [hlen]
    exact Nat.mul_le_mul_right _ (by omega)
  have hpages : (if (ppb : ℤ) - (reached offset count ppb b - b * ppb : ℕ) ≤
        (offset + count - reached offset count ppb b : ℕ) then
      (ppb : ℤ) - (reached offset count ppb b - b * ppb : ℕ)
      else (offset + count - reached offset count ppb b : ℕ)) =
      (reached offset count ppb (b + 1) - reached offset count ppb b : ℕ) := by
    split_ifs
    all_goals omega
  unfold pwriteBlock PwriteVars.at
  dsimp only
  rw [htest, if_pos hlast, wp_bind, wp_read, Post.seq_ret, hs, hpages, hplace,
    checked_eq (by omega) (by omega), pure_bind, if_pos ⟨by omega, by omega⟩, Int.toNat_natCast,
    Post.after_nil, wp_bind]
  refine wp_mono env ?_ hinject
  rintro (r | e) s' w' t' hQ
  · rw [Post.seq_ret]
    unfold blockPost at hQ
    dsimp only at hQ
    by_cases hr0 : r ≠ 0
    · rw [if_pos hr0] at hQ
      rw [if_pos hr0, wp_pure]
      simpa using hQ
    · rw [if_neg hr0] at hQ
      rw [if_neg hr0, wp_bind]
      cases Nat.lt_or_ge (b + 1) (2 ^ 31) with
      | inl hnext =>
        rw [if_pos hnext] at hQ
        rw [checked_eq (by omega) (by omega), wp_pure, Post.seq_ret, wp_pure, not_not.mp hr0]
        exact ⟨PwriteVars.at_next hppb hcount hfirst hlast, hnext, by simpa using hQ⟩
      | inr hnext =>
        rw [if_neg (Nat.not_lt.mpr hnext)] at hQ
        rw [checked_undefined (by omega)]
        simpa using hQ
  · exact hQ

/-- The rule for the loop of `mcman_pwrite`: what is kept when the pages of the range that lie in a
block are injected into it, block by block, holds when the last block is written. -/
theorem wp_pwriteLoop (hppb : 0 < ppb) (hcount : 0 < count) (hfirst : offset / ppb < 2 ^ 31)
    (hlast : (offset + count - 1) / ppb < 2 ^ 32) (hlen : buf.length = count * h.blocksize.toNat)
    (hlt : buf.length < 2 ^ 31) {Q : Post Statics McCall McResp σ ℤ}
    (I : ℕ → Statics → σ → List (Event McCall McResp) → Prop)
    (hI : ∀ b s w t, I b s w t → s.pagesPerBlock.toNat = ppb)
    (hinject : ∀ b s w t, offset / ppb ≤ b → b ≤ (offset + count - 1) / ppb → I b s w t →
      wp env (injectPages mcDataChecksum h.device b h.blocksize.toNat
        (reached offset count ppb b - b * ppb : ℕ)
        (reached offset count ppb (b + 1) - reached offset count ppb b : ℕ) ppb
        (buf.drop ((reached offset count ppb b - offset) * h.blocksize.toNat)))
        (blockPost Q I b t) s w)
    (hend : ∀ s w t, I ((offset + count - 1) / ppb + 1) s w t → Q (.ret 0) s w t)
    (hstart : I (offset / ppb) s w []) :
    wp env (Prog.loop pwriteFuel (pwriteBlock mcDataChecksum h buf ((offset + count - 1) / ppb))
      ⟨(offset / ppb : ℕ), (offset % ppb : ℕ), count, 0, 0⟩) Q s w := by
  rw [← Post.after_nil Q, ← PwriteVars.at_first]
  have hle : offset / ppb ≤ (offset + count - 1) / ppb := Nat.div_le_div_right (by omega)
  refine wp_loop_total env
    (fun x s w t => ∃ b, x = .at offset count ppb b ∧ b < 2 ^ 31 ∧ offset / ppb ≤ b ∧
      b ≤ (offset + count - 1) / ppb + 1 ∧ I b s w t)
    (fun x _ _ => (offset + count - 1) / ppb + 1 - x.i.toNat) ?_ _ _ _ _ _ ?_
    ⟨_, rfl, hfirst, Nat.le_refl _, by omega, hstart⟩
  · rintro x s w t ⟨b, rfl, hb, hlo, hhi, hb'⟩
    by_cases hdone : b ≤ (offset + count - 1) / ppb
    · refine wp_mono env ?_ (wp_pwriteBlock mcDataChecksum hppb hcount hlo hdone hb hlen
        hlt (hI b s w t hb') (hinject b s w t hlo hdone hb'))
      rintro ((x' | r) | e) s' w' t' hQ
      · obtain ⟨rfl, hb₁, hI₁⟩ := hQ
        refine ⟨⟨b + 1, rfl, hb₁, by omega, by omega, hI₁⟩, ?_⟩
        show (offset + count - 1) / ppb + 1 - ((b + 1 : ℕ) : ℤ).toNat < (offset + count - 1) /
          ppb + 1 - (b : ℤ).toNat
        omega
      · exact hQ
      · exact hQ
    · have hb₁ : b = (offset + count - 1) / ppb + 1 := by omega
      have htest : ((b : ℤ) % 2 ^ 32).toNat = b := by omega
      unfold pwriteBlock PwriteVars.at
      dsimp only
      rw [htest, if_neg hdone, wp_pure, Post.round_done, List.append_nil]
      exact hend s w t (hb₁ ▸ hb')
  · show (offset + count - 1) / ppb + 1 - ((offset / ppb : ℕ) : ℤ).toNat < 2 ^ 32 + 1
    omega

end Rules

end LwNBD.Mcman
