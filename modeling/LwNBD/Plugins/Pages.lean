import LwNBD.Plugins.Blocks

/-!
# Pages written to a memory card

What `mcman_pwrite` leaves on a card that works. The card is a flash array: to erase a block
destroys all its pages, to write a page stores it.

## The model

* `IsFlash` — the card library works on a flash array.

## What is proved

* `wp_readBlock`, `wp_writeBlock`, `wp_injectPages` — what the parts leave in the scratch buffer and
  on the card.
* `mcmanPwrite_stores` — the pages written are on the card afterwards, and the others as they were.
-/

namespace LwNBD.Mcman

open Resumption

/-- The calls work on a flash array of so many pages of `pageLen` bytes, `ppb` of them in a block,
and `card` is what it holds. A block that has a page of the card is there as a whole. -/
structure IsFlash {σ : Type} (env : Env McCall McResp σ) (card : σ → ℕ → Bytes) (port : ℤ)
    (pages ppb pageLen : ℕ) : Prop where
  /-- The number of pages is an `int`. -/
  size : pages < 2 ^ 31
  /-- The length of a page. -/
  length : ∀ w p, (card w p).length = pageLen
  /-- To erase a block leaves the pages of other blocks, and nothing is said of its own. -/
  erase : ∀ w (b : ℕ), b * ppb < pages → (env w (.eraseBlock port 0 b)).1 = 0 ∧
    ∀ p, p / ppb ≠ b → card (env w (.eraseBlock port 0 b)).2 p = card w p
  /-- To read a page gives what it holds, and leaves the card. -/
  read : ∀ w (p : ℕ), p / ppb * ppb < pages → (env w (.readPage port 0 p)).1 = ⟨0, card w p⟩ ∧
    card (env w (.readPage port 0 p)).2 = card w
  /-- To write a page stores it. -/
  write : ∀ w (p : ℕ) data ecc, p / ppb * ppb < pages → data.length = pageLen →
    (env w (.writePage port 0 p data ecc)).1 = 0 ∧
      card (env w (.writePage port 0 p data ecc)).2 = Function.update (card w) p data

section Parts

variable (mcDataChecksum : Bytes → Vector UInt8 3) {σ : Type} {env : Env McCall McResp σ}
  {card : σ → ℕ → Bytes} {port : ℤ} {pages ppb pageLen b : ℕ}

/-- The number of a page of a block, as the code computes it. -/
theorem checked_page {α : Type} {j : ℕ} (hj : j < ppb) (hend : b * ppb + ppb ≤ 2 ^ 31)
    (f : ℤ → Mc α) :
    (checked ((b : ℤ) * ppb) >>= fun first => checked (first + j) >>= f) = f (b * ppb + j : ℕ) := by
  have hcast : (b : ℤ) * ppb = (b * ppb : ℕ) := by push_cast; rfl
  rw [hcast, checked_eq (by omega) (by omega), pure_bind, checked_eq (by omega) (by omega),
    pure_bind]
  rfl

theorem page_le {j n size : ℕ} (hj : j < n) (hlen : n * pageLen ≤ size) :
    j * pageLen + pageLen ≤ size := by
  have hle : (j + 1) * pageLen ≤ n * pageLen := Nat.mul_le_mul_right pageLen hj
  rw [Nat.succ_mul] at hle
  omega

theorem checked_place {j : ℕ} (hlt : j * pageLen < 2 ^ 31) :
    checked ((j : ℤ) * pageLen) = pure ((j * pageLen : ℕ) : ℤ) := by
  have hcast : (j : ℤ) * pageLen = (j * pageLen : ℕ) := by push_cast; rfl
  rw [hcast, checked_eq (by omega) (by omega)]

theorem page_block {j : ℕ} (hj : j < ppb) : (b * ppb + j) / ppb = b := by
  rw [Nat.mul_comm, Nat.mul_add_div (by omega), Nat.div_eq_of_lt hj, Nat.add_zero]

/-- `readBlock` fills the scratch buffer with the pages of the block. -/
theorem wp_readBlock (hflash : IsFlash env card port pages ppb pageLen) (hppb : 0 < ppb)
    (hb : b * ppb < pages) (hend : b * ppb + ppb ≤ 2 ^ 31) {buffer : Bytes}
    (hlen : ppb * pageLen ≤ buffer.length) (hlt : ppb * pageLen < 2 ^ 31) (s : Statics) (w : σ) :
    wp env (readBlock port b buffer pageLen ppb) (fun o s' w' _ => s' = s ∧ card w' = card w ∧
      ∃ buffer', o = .ret (0, buffer') ∧ buffer'.length = buffer.length ∧
        buffer'.page pageLen = overlay (buffer.page pageLen) 0 ppb fun i => card w (b * ppb + i))
        s w := by
  unfold readBlock
  rw [wp_bind]
  refine wp_mono env ?_ (wp_count env (Q := fun _ _ _ _ => False)
    (fun j buffer' s' w' _ => s' = s ∧ card w' = card w ∧ buffer'.length = buffer.length ∧
      buffer'.page pageLen = overlay (buffer.page pageLen) 0 j fun i => card w (b * ppb + i))
    ?_ ppb 0 (Nat.zero_add ppb) (h := []) ⟨rfl, rfl, rfl, overlay_zero.symm⟩)
  · rintro ((buffer' | r) | e) s' w' t hQ
    · obtain ⟨rfl, hcard, hlen', hpage⟩ := hQ
      rw [Post.seq_ret]
      dsimp only
      rw [if_neg (by omega), wp_pure]
      exact ⟨rfl, hcard, buffer', rfl, hlen', hpage⟩
    · exact hQ.elim
    · exact hQ.elim
  · rintro j buffer' s' w' t hj ⟨rfl, hcard, hlen', hpage⟩
    have hle := page_le hj hlen
    have hle' := page_le hj (Nat.le_refl (ppb * pageLen))
    obtain ⟨hr, hcard'⟩ := hflash.read w' (b * ppb + j) (by rw [page_block hj]; exact hb)
    have hdata : (card w' (b * ppb + j)).length = 1 * pageLen := by rw [hflash.length, Nat.one_mul]
    have hone : (card w' (b * ppb + j)).page pageLen 0 = card w (b * ppb + j) := by
      rw [List.page_zero (hflash.length _ _), hcard]
    unfold readBlockPage
    rw [checked_place (by omega), pure_bind, checked_page hj hend, wp_bind,
      wp_perform, Post.seq_ret, hr]
    dsimp only
    rw [Int.toNat_natCast, if_pos (by omega), if_neg (by simp), wp_pure]
    refine ⟨rfl, hcard'.trans hcard, ?_, ?_⟩
    · rw [List.length_overwrite (by omega), hlen']
    · have hstep :=
        overlay_succ (f := buffer.page pageLen) (o := 0) (g := fun i => card w (b * ppb + i)) hone
      rw [Nat.zero_add] at hstep
      rw [List.page_overwrite hdata (by omega), hpage, hstep]

/-- `writeBlock` lays the pages of its buffer over the block. -/
theorem wp_writeBlock (hflash : IsFlash env card port pages ppb pageLen) (hppb : 0 < ppb)
    (hb : b * ppb < pages) (hend : b * ppb + ppb ≤ 2 ^ 31) {buffer : Bytes}
    (hlen : ppb * pageLen ≤ buffer.length) (hsum : Checkable ppb pageLen buffer.length)
    (hlt : ppb * pageLen < 2 ^ 31) (s : Statics) (w : σ) :
    wp env (writeBlock mcDataChecksum port b buffer pageLen ppb)
    (fun o s' w' _ => o = .ret 0 ∧ s' = s ∧
      card w' = overlay (card w) (b * ppb) ppb (buffer.page pageLen)) s w := by
  obtain ⟨herase, hothers⟩ := hflash.erase w b hb
  unfold writeBlock
  rw [wp_bind, wp_perform, Post.seq_ret, herase, if_neg (by simp), wp_bind]
  refine wp_mono env ?_ (wp_count env (Q := fun _ _ _ _ => False)
    (fun j _ s' w' _ => s' = s ∧ card w' =
      overlay (card (env w (.eraseBlock port 0 b)).2) (b * ppb) j (buffer.page pageLen))
    ?_ ppb 0 (Nat.zero_add ppb) (h := []) ⟨rfl, overlay_zero.symm⟩)
  · rintro ((ecc | r) | e) s' w' t hQ
    · obtain ⟨rfl, hcard⟩ := hQ
      rw [Post.seq_ret, wp_pure]
      refine ⟨rfl, rfl, hcard.trans
        (overlay_congr (fun p hp => hothers p fun hpb => hp ?_) fun _ _ => rfl)⟩
      have h := Nat.div_add_mod p ppb
      have h' := Nat.mod_lt p hppb
      rw [hpb, Nat.mul_comm] at h
      omega
    · exact hQ.elim
    · exact hQ.elim
  · rintro j ecc s' w' t hj ⟨rfl, hcard⟩
    have hle := page_le hj hlen
    have hle' := page_le hj (Nat.le_refl (ppb * pageLen))
    obtain ⟨hr, hcard'⟩ := hflash.write w' (b * ppb + j) (buffer.page pageLen j)
      (checksums mcDataChecksum buffer (j * pageLen) ecc) (by rw [page_block hj]; exact hb)
      (List.length_slice hle)
    unfold writeBlockPage
    rw [checked_place (by omega), pure_bind, Int.toNat_natCast, if_pos (hsum.page hj),
      checked_page hj hend, if_pos hle, wp_bind, wp_perform, Post.seq_ret]
    unfold List.page at hr hcard'
    rw [hr, if_neg (by simp), wp_pure]
    refine ⟨rfl, ?_⟩
    rw [hcard', hcard]
    exact update_overlay

theorem wp_injectBuffer {s : Statics} {scratch : Bytes} (hs : s.bbuffer = some scratch)
    {offset nPages : ℕ} {buffer : Bytes} (hlen : (offset + nPages) * pageLen ≤ scratch.length)
    (hlt : (offset + nPages) * pageLen < 2 ^ 31) (hbuf : nPages * pageLen ≤ buffer.length)
    {Q : Post Statics McCall McResp σ Unit} {w : σ} :
    wp env (injectBuffer pageLen offset nPages buffer) Q s w ↔ Q (.ret ())
      { s with bbuffer := some (scratch.overwrite (offset * pageLen)
  (buffer.take (nPages * pageLen))) } w [] := by
  rw [Nat.add_mul] at hlen hlt
  unfold injectBuffer
  rw [checked_place (by omega), pure_bind, checked_place (by omega), pure_bind, wp_bind,
    wp_read, Post.seq_ret, hs]
  dsimp only
  rw [if_pos (by omega), wp_modify, Int.toNat_natCast, Int.toNat_natCast]
  exact Iff.rfl

/-- `injectPages` lays the pages it is handed over those of the card. -/
theorem wp_injectPages (hflash : IsFlash env card port pages ppb pageLen) (hppb : 0 < ppb)
    (hb : b * ppb < pages) (hend : b * ppb + ppb ≤ 2 ^ 31) {s : Statics} {scratch : Bytes}
    (hs : s.bbuffer = some scratch) (hlen : ppb * pageLen ≤ scratch.length)
    (hsum : Checkable ppb pageLen scratch.length) (hlt : ppb * pageLen < 2 ^ 31) {offset nPages : ℕ}
    {buffer : Bytes} (hpages : offset + nPages ≤ ppb) (hbuf : nPages * pageLen ≤ buffer.length)
    (w : σ) :
    wp env (injectPages mcDataChecksum port b pageLen offset nPages ppb buffer)
    (fun o s' w' _ => o = .ret 0 ∧
      Kept s s' ∧ card w' = overlay (card w) (b * ppb + offset) nPages (buffer.page pageLen))
      s w := by
  have hstretch : (offset + nPages) * pageLen ≤ ppb * pageLen := Nat.mul_le_mul_right pageLen hpages
  have hoffset : offset * pageLen ≤ (offset + nPages) * pageLen :=
    Nat.mul_le_mul_right pageLen (by omega)
  have htake : (buffer.take (nPages * pageLen)).length = nPages * pageLen := by simp [hbuf]
  have hpage : ∀ i < nPages, (buffer.take (nPages * pageLen)).page pageLen i =
      buffer.page pageLen i :=
    fun i => List.page_take
  -- what is left to do when the scratch buffer has been read, or need not be
  have hrest : ∀ (s₁ : Statics) (b₁ : Bytes) (w₁ : σ), Kept s s₁ → s₁.bbuffer = some b₁ →
      b₁.length = scratch.length → card w₁ = card w →
      overlay (card w) (b * ppb) ppb
        (overlay (b₁.page pageLen) offset nPages (buffer.page pageLen)) =
        overlay (card w) (b * ppb + offset) nPages (buffer.page pageLen) →
      wp env (injectBuffer pageLen offset nPages buffer >>= fun _ =>
        Prog.read >>= fun s₂ : Statics =>
        writeBlock mcDataChecksum port b s₂.scratch pageLen ppb)
          (fun o s' w' _ => o = .ret 0 ∧ Kept s s' ∧
          card w' = overlay (card w) (b * ppb + offset) nPages (buffer.page pageLen)) s₁ w₁ := by
    intro s₁ b₁ w₁ hkept hs₁ hlen₁ hcard hpatch
    have hsize : (b₁.overwrite (offset * pageLen) (buffer.take (nPages * pageLen))).length =
        scratch.length := by
      rw [List.length_overwrite (by rw [htake, ← Nat.add_mul]; omega), hlen₁]
    rw [wp_bind, wp_injectBuffer hs₁ (by omega) (by omega) hbuf, Post.seq_ret, wp_bind,
      wp_read, Post.seq_ret, Statics.scratch_some]
    refine wp_mono env ?_ (wp_writeBlock mcDataChecksum hflash hppb hb hend
      (by rw [hsize]; exact hlen) (by rw [hsize]; exact hsum) hlt _ _)
    rintro o s' w' t ⟨rfl, rfl, hcard'⟩
    refine ⟨rfl, hkept.trans ⟨rfl, rfl, ?_⟩, ?_⟩
    · rw [hs₁, Option.map_some, Option.map_some, hsize, hlen₁]
    · rw [hcard', hcard, ← hpatch, List.page_overwrite htake (by omega)]
      exact overlay_congr (fun _ _ => rfl) fun i _ =>
        congrFun (overlay_congr (fun _ _ => rfl) hpage) i
  unfold injectPages fetchBlock
  rw [wp_bind]
  by_cases hpart : (offset : ℤ) ≠ 0 ∨ (nPages : ℤ) ≠ ppb
  · rw [if_pos hpart, wp_bind, wp_read, Post.seq_ret, wp_bind, Statics.scratch, hs]
    refine wp_mono env ?_ (wp_readBlock hflash hppb hb hend hlen hlt s w)
    rintro o s' w' t ⟨rfl, hcard, buffer', rfl, hlen', hpage'⟩
    rw [Post.seq_ret, wp_bind, wp_modify, Post.seq_ret, wp_pure, Post.after_apply,
      Post.after_apply, Post.after_apply, Post.seq_ret, if_neg (by simp)]
    refine hrest _ buffer' w' ⟨rfl, rfl, ?_⟩ (by rw [hs]; rfl) hlen' hcard ?_
    · rw [hs]
      exact congrArg some hlen'
    · rw [hpage']
      exact overlay_patch hpages
  · obtain ⟨hzero, hall⟩ := not_or.mp hpart
    obtain rfl : offset = 0 := by omega
    obtain rfl : nPages = ppb := by omega
    rw [if_neg hpart, wp_pure, Post.seq_ret, if_neg (by simp)]
    exact hrest s scratch w (.refl s) hs rfl rfl overlay_whole

end Parts

/-- **The pages written are on the card, and the others are as they were.** The pages of a card have
512 bytes, or more: so many the checksums are of. -/
theorem mcmanPwrite_stores (mcDataChecksum : Bytes → Vector UInt8 3) {σ : Type}
    {env : Env McCall McResp σ} {card : σ → ℕ → Bytes} {s : Statics} {d : HandleIdx}
    {pages : ℕ} (hs : Ready s d)
    (hflash : IsFlash env card (s.handles d).device pages s.pagesPerBlock.toNat
      (s.handles d).blocksize.toNat)
    (hpage : 512 ≤ (s.handles d).blocksize.toNat) (buf : Object) (count : UInt32)
    (offset : UInt64) (flags : UInt32) (hcount : 1 ≤ count.toNat)
    (hbuf : buf.bytes.length = count.toNat * (s.handles d).blocksize.toNat)
    (hcard : offset.toNat + count.toNat ≤ pages) (w : σ) :
    ((mcmanPwrite mcDataChecksum d buf.bytes count offset flags).run env s w).out = .ret 0 ∧
      ∀ p, card ((mcmanPwrite mcDataChecksum d buf.bytes count offset flags).run env s w).env p =
        if offset.toNat ≤ p ∧ p < offset.toNat + count.toNat then
          buf.bytes.page (s.handles d).blocksize.toNat (p - offset.toNat)
        else card w p := by
  have hpos := hs.pos
  have hsize := hflash.size
  have hle : offset.toNat / s.pagesPerBlock.toNat ≤ offset.toNat := Nat.div_le_self _ _
  have hle' : (offset.toNat + count.toNat - 1) / s.pagesPerBlock.toNat ≤
      offset.toNat + count.toNat - 1 :=
    Nat.div_le_self _ _
  suffices h : wp env (mcmanPwrite mcDataChecksum d buf.bytes count offset flags)
      (fun o _ w' _ => o = .ret 0 ∧ card w' = overlay (card w) offset.toNat count.toNat
      (buf.bytes.page (s.handles d).blocksize.toNat)) s w from
    ⟨h.1, fun p => congrFun h.2 p⟩
  rw [mcmanPwrite_eq mcDataChecksum count offset flags _ hs, Nat.mod_eq_of_lt (by omega),
    asInt_eq (by omega),
    asInt_eq (by omega), lastBlock_eq hcount (by omega) (by omega)]
  refine wp_pwriteLoop mcDataChecksum hpos hcount (by omega) (by omega) hbuf buf.length_lt
    (fun b s' w' _ => Kept s s' ∧ card w' = overlay (card w) offset.toNat
      (reached offset.toNat count.toNat s.pagesPerBlock.toNat b - offset.toNat)
      (buf.bytes.page (s.handles d).blocksize.toNat)) ?_ ?_ ?_ ?_
  · rintro b s' w' t ⟨hkept, -⟩
    rw [hkept.pagesPerBlock]
  · rintro b s' w' t hlo hhi ⟨hkept, hover⟩
    obtain ⟨hb, hb'⟩ := block_start hpos hcount hlo hhi
    obtain ⟨hr, hr'⟩ := reached_block hpos hcount hlo hhi
    obtain ⟨scratch, hscratch, hlen⟩ := hkept.scratch hs
    have hplace : b * s.pagesPerBlock.toNat +
        (reached offset.toNat count.toNat s.pagesPerBlock.toNat b - b * s.pagesPerBlock.toNat) =
        offset.toNat + (reached offset.toNat count.toNat s.pagesPerBlock.toNat
          b - offset.toNat) := by omega
    have hrest := length_left hpos hcount hlo hhi hbuf
    refine wp_mono env ?_ (wp_injectPages mcDataChecksum hflash hpos (by omega)
      (hs.block_fits (by omega)) hscratch hlen (checkable_of_le hpos hpage hlen) hs.block_lt
      (by omega) hrest w')
    rintro o s'' w'' t' ⟨rfl, hkept', hcard'⟩
    unfold blockPost
    dsimp only
    rw [if_neg (by simp), if_pos (by omega)]
    refine ⟨hkept.trans hkept', ?_⟩
    rw [hcard', hover, hplace]
    have hshift :
        (buf.bytes.drop ((reached offset.toNat count.toNat s.pagesPerBlock.toNat b - offset.toNat) *
        (s.handles d).blocksize.toNat)).page (s.handles d).blocksize.toNat = fun i =>
          buf.bytes.page (s.handles d).blocksize.toNat
            (reached offset.toNat count.toNat s.pagesPerBlock.toNat b - offset.toNat + i) :=
      funext fun i => List.page_drop _ _ _ i
    rw [hshift, overlay_overlay]
    congr 1
    omega
  · rintro s' w' t ⟨-, hover⟩
    rw [reached_last hpos hcount, Nat.add_sub_cancel_left] at hover
    exact ⟨rfl, hover⟩
  · refine ⟨.refl s, ?_⟩
    rw [reached_first, Nat.sub_self, overlay_zero]

/-! ### A card -/

namespace Sample

/-- A flash array with `ppb` pages of `n` bytes in a block. -/
def flash (n ppb : ℕ) : Env McCall McResp (ℕ → Vector UInt8 n)
  | w, .detectCard .. => (0, w)
  | w, .getCardSpec .. => (⟨0, Int16.ofNat n, UInt16.ofNat ppb, 16384, 0⟩, w)
  | w, .allocSysMemory _ => (some fun _ => 0, w)
  | w, .eraseBlock _ _ block =>
    (0, fun p => if ((p / ppb : ℕ) : ℤ) = block then .replicate n 0xFF else w p)
  | w, .readPage _ _ page => (⟨0, (w page.toNat).toList⟩, w)
  | w, .writePage _ _ page data _ =>
    (0, if h : data.length = n then Function.update w page.toNat ⟨data.toArray, h⟩ else w)

theorem flash_isFlash {n ppb pages : ℕ} (hpages : pages < 2 ^ 31) (port : ℤ) :
    IsFlash (flash n ppb) (fun w p => (w p).toList) port pages ppb n where
  size := hpages
  length w p := Vector.length_toList
  erase w b _ := by
    refine ⟨rfl, fun p hp => ?_⟩
    show (if ((p / ppb : ℕ) : ℤ) = b then _ else w p).toList = (w p).toList
    rw [if_neg (by exact_mod_cast hp)]
  read w p _ := ⟨rfl, rfl⟩
  write w p data ecc _ hlen := by
    refine ⟨rfl, funext fun q => ?_⟩
    show ((if h : data.length = n then Function.update w (p : ℤ).toNat ⟨data.toArray, h⟩
      else w) q).toList = _
    rw [dif_pos hlen, Int.toNat_natCast]
    by_cases hq : q = p
    · subst hq
      rw [Function.update_self, Function.update_self]
      rfl
    · rw [Function.update_of_ne hq, Function.update_of_ne hq]

/-- A handle of a card with pages of 512 bytes, 16 of them in a block. -/
def mounted : Statics := ⟨fun _ => ⟨0, 8388608, 512⟩, some (List.replicate 8192 0), 16⟩

theorem mounted_ready : Ready mounted 0 :=
  ⟨⟨4, rfl⟩, _, rfl, by rw [List.length_replicate]; exact Nat.le_refl _⟩

/-- What `McDataChecksum` stores for 128 bytes that are equal. -/
def checksum : Bytes → Vector UInt8 3 := fun _ => #v[0x77, 0x7F, 0x7F]

end Sample

/-- Twenty pages, of three blocks. -/
theorem mcmanPwrite_stores_twenty :
    ((mcmanPwrite Sample.checksum 0 (List.replicate 10240 7) 20 10 0).run
      (Sample.flash 512 16) Sample.mounted
        fun _ => .replicate 512 0).out = .ret 0 ∧
      ∀ p, (((mcmanPwrite Sample.checksum 0 (List.replicate 10240 7) 20 10 0).run
      (Sample.flash 512 16) Sample.mounted
          fun _ => .replicate 512 0).env p).toList =
        if 10 ≤ p ∧ p < 10 + 20 then (List.replicate 10240 7).page 512 (p - 10)
        else (Vector.replicate 512 0).toList :=
  mcmanPwrite_stores Sample.checksum Sample.mounted_ready
    (Sample.flash_isFlash (by omega : 16384 < 2 ^ 31) 0) (by decide) ⟨List.replicate 10240 7, by
    rw [List.length_replicate]; omega⟩ 20 10 0 (by decide) (by rw [List.length_replicate]; rfl)
    (by decide) _

end LwNBD.Mcman
