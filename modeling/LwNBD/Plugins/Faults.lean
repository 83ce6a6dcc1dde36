import LwNBD.Plugins.Erasure

/-!
# Writes that fail on the way

What `mcman_pwrite` leaves on a card of which any call may fail, at any time, and the power with it.
A call that fails may have done anything to the block that it erases, or to the page that it writes.
So a write that fails has damaged a block, with pages in it that nobody asked to write. But it is no
more than one: what is before it is written, what is after it is as it was. Of many writes, however
they fail, no more blocks are damaged than writes have failed, and all others are as a disk of pages
has them.

## The model

* `IsFragile` — a flash array of which any call may fail; `powered` — one whose power fails.
* `Write`, `mcmanPwrites` — writes, one after the other, whatever becomes of them.
* `Written` — what becomes of a disk of pages when writes are cut short.

## What is proved

* `wp_readBlock_fragile`, `wp_writeBlock_fragile`, `wp_injectPages_fragile` — what the parts leave
  on the card.
* `wp_mcmanPwrite_fragile` — a write is done up to some block, and only that one may be damaged, if
  it was erased.
* `damage_confined` — as many blocks as writes have failed, at most, are not as on the disk.
-/

namespace LwNBD.Mcman

open Resumption

/-- The calls work on a flash array, or fail: what a call that fails leaves is not known of the
block that it erases, or of the page that it writes. -/
structure IsFragile {σ : Type} (env : Env McCall McResp σ) (card : σ → ℕ → Bytes) (port : ℤ)
    (pages ppb pageLen : ℕ) : Prop where
  /-- The number of pages is an `int`. -/
  size : pages < 2 ^ 31
  /-- The length of a page. -/
  length : ∀ w p, (card w p).length = pageLen
  /-- To erase a block leaves the pages of other blocks. -/
  erase : ∀ w (b : ℕ), b * ppb < pages → ∀ p, p / ppb ≠ b →
    card (env w (.eraseBlock port 0 b)).2 p = card w p
  /-- To read a page stores no more than a page. -/
  read_le : ∀ w (p : ℕ), p / ppb * ppb < pages →
    (env w (.readPage port 0 p)).1.data.length ≤ pageLen
  /-- If it does not fail, it stores what the page holds. -/
  read : ∀ w (p : ℕ), p / ppb * ppb < pages → (env w (.readPage port 0 p)).1.ret = 0 →
    (env w (.readPage port 0 p)).1.data = card w p
  /-- It leaves the card. -/
  read_keeps : ∀ w (p : ℕ), p / ppb * ppb < pages → card (env w (.readPage port 0 p)).2 = card w
  /-- To write a page leaves the other pages. -/
  write_keeps : ∀ w (p : ℕ) data ecc, p / ppb * ppb < pages → data.length = pageLen → ∀ q, q ≠ p →
    card (env w (.writePage port 0 p data ecc)).2 q = card w q
  /-- If it does not fail, the page is stored. -/
  write : ∀ w (p : ℕ) data ecc, p / ppb * ppb < pages → data.length = pageLen →
    (env w (.writePage port 0 p data ecc)).1 = 0 →
    card (env w (.writePage port 0 p data ecc)).2 p = data

/-- What is answered when the power has failed. -/
def refusal : (e : McCall) → McResp e
  | .detectCard .. | .eraseBlock .. | .writePage .. => (-1 : ℤ)
  | .getCardSpec .. => ⟨-1, 0, 0, 0, 0⟩
  | .allocSysMemory _ => none
  | .readPage .. => ⟨-1, []⟩

/-- A card whose power fails when it has answered so many calls. -/
def powered {σ : Type} (env : Env McCall McResp σ) : Env McCall McResp (σ × ℕ)
  | (w, 0), e => (refusal e, w, 0)
  | (w, n + 1), e => ((env w e).1, (env w e).2, n)

/-- A card that works until its power fails is one. -/
theorem IsFlash.powered {σ : Type} {env : Env McCall McResp σ} {card : σ → ℕ → Bytes} {port : ℤ}
    {pages ppb pageLen : ℕ} (h : IsFlash env card port pages ppb pageLen) :
    IsFragile (powered env) (fun x => card x.1) port pages ppb pageLen where
  size := h.size
  length x p := h.length x.1 p
  erase := by
    rintro ⟨w, _ | n⟩ b hb p hp
    · rfl
    · exact (h.erase w b hb).2 p hp
  read_le := by
    rintro ⟨w, _ | n⟩ p hp
    · exact Nat.zero_le _
    · exact Nat.le_of_eq ((congrArg (fun r : PageRead => r.data.length) (h.read w p hp).1).trans
        (h.length w p))
  read := by
    rintro ⟨w, _ | n⟩ p hp hr
    · exact absurd hr (by decide : (-1 : ℤ) ≠ 0)
    · exact congrArg PageRead.data (h.read w p hp).1
  read_keeps := by
    rintro ⟨w, _ | n⟩ p hp
    · rfl
    · exact (h.read w p hp).2
  write_keeps := by
    rintro ⟨w, _ | n⟩ p data ecc hp hlen q hq
    · rfl
    · exact (congrFun (h.write w p data ecc hp hlen).2 q).trans (Function.update_of_ne hq _ _)
  write := by
    rintro ⟨w, _ | n⟩ p data ecc hp hlen hr
    · exact absurd hr (by decide : (-1 : ℤ) ≠ 0)
    · exact (congrFun (h.write w p data ecc hp hlen).2 p).trans (Function.update_self _ _ _)

section Parts

variable (mcDataChecksum : Bytes → Vector UInt8 3) {σ : Type} {env : Env McCall McResp σ}
  {card : σ → ℕ → Bytes} {port : ℤ} {pages ppb pageLen b : ℕ}

theorem overlay_block {f g h : ℕ → Bytes} (hppb : 0 < ppb) (hout : ∀ p, p / ppb ≠ b → f p = g p)
    (hin : ∀ i < ppb, f (b * ppb + i) = h i) : f = overlay g (b * ppb) ppb h := by
  funext p
  by_cases hp : b * ppb ≤ p ∧ p < b * ppb + ppb
  · obtain ⟨i, rfl⟩ := Nat.exists_eq_add_of_le hp.1
    rw [overlay_in hp, Nat.add_sub_cancel_left, hin i (by omega)]
  · rw [overlay_out hp]
    refine hout p fun hpb => hp ?_
    have h := Nat.div_add_mod p ppb
    have h' := Nat.mod_lt p hppb
    rw [hpb, Nat.mul_comm] at h
    omega

/-- `readBlock` leaves the card, and if it does not fail the scratch buffer holds the pages of the
block. -/
theorem wp_readBlock_fragile (hflash : IsFragile env card port pages ppb pageLen) (hppb : 0 < ppb)
    (hb : b * ppb < pages) (hend : b * ppb + ppb ≤ 2 ^ 31) {buffer : Bytes}
    (hlen : ppb * pageLen ≤ buffer.length) (hlt : ppb * pageLen < 2 ^ 31) (s : Statics) (w : σ) :
    wp env (readBlock port b buffer pageLen ppb) (fun o s' w' _ => s' = s ∧ card w' = card w ∧
      ∃ r buffer', o = .ret (r, buffer') ∧ buffer'.length = buffer.length ∧
        (r = 0 → buffer'.page pageLen = overlay (buffer.page pageLen) 0 ppb fun i =>
        card w (b * ppb + i))) s w := by
  unfold readBlock
  rw [wp_bind]
  refine wp_mono env ?_ (wp_count env (Q := fun o s' w' _ => s' = s ∧ card w' = card w ∧
      ∃ r buffer', o = .ret (r, buffer') ∧ buffer'.length = buffer.length ∧ r ≠ 0)
    (fun j buffer' s' w' _ => s' = s ∧ card w' = card w ∧ buffer'.length = buffer.length ∧
      buffer'.page pageLen = overlay (buffer.page pageLen) 0 j fun i => card w (b * ppb + i))
    ?_ ppb 0 (Nat.zero_add ppb) (h := []) ⟨rfl, rfl, rfl, overlay_zero.symm⟩)
  · rintro ((buffer' | r) | e) s' w' t hQ
    · obtain ⟨rfl, hcard, hlen', hpage⟩ := hQ
      rw [Post.seq_ret]
      dsimp only
      rw [if_neg (by omega), wp_pure]
      exact ⟨rfl, hcard, 0, buffer', rfl, hlen', fun _ => hpage⟩
    · obtain ⟨rfl, hcard, r', buffer', hr, hlen', hne⟩ := hQ
      cases hr
      rw [Post.seq_ret, wp_pure]
      exact ⟨rfl, hcard, r', buffer', rfl, hlen', fun h => absurd h hne⟩
    · obtain ⟨-, -, r', buffer', hr, -⟩ := hQ
      cases hr
  · rintro j buffer' s' w' t hj ⟨rfl, hcard, hlen', hpage⟩
    have hle := page_le hj hlen
    have hle' := page_le hj (Nat.le_refl (ppb * pageLen))
    have hpages : (b * ppb + j) / ppb * ppb < pages := by
      rw [page_block hj]
      exact hb
    have hdata := hflash.read_le w' (b * ppb + j) hpages
    have hcard' := hflash.read_keeps w' (b * ppb + j) hpages
    have hread := hflash.read w' (b * ppb + j) hpages
    unfold readBlockPage
    rw [checked_place (by omega), pure_bind, checked_page hj hend, wp_bind,
      wp_perform, Post.seq_ret]
    revert hdata hcard' hread
    generalize env w' (.readPage port 0 (b * ppb + j : ℕ)) = a
    intro hdata hcard' hread
    have hfits : j * pageLen + a.1.data.length ≤ buffer'.length := by omega
    have hlen'' : (buffer'.overwrite (j * pageLen) a.1.data).length = buffer.length := by
      rw [List.length_overwrite hfits, hlen']
    dsimp only
    rw [Int.toNat_natCast, if_pos hfits]
    by_cases hr : a.1.ret = 0
    · have hpagelen : a.1.data.length = 1 * pageLen := by rw [hread hr, hflash.length, Nat.one_mul]
      have hone : a.1.data.page pageLen 0 = card w (b * ppb + j) := by
        rw [hread hr, List.page_zero (hflash.length _ _), hcard]
      have hstep :=
        overlay_succ (f := buffer.page pageLen) (o := 0) (g := fun i => card w (b * ppb + i)) hone
      rw [Nat.zero_add] at hstep
      rw [if_neg (not_not.mpr hr), wp_pure]
      refine ⟨rfl, hcard'.trans hcard, hlen'', ?_⟩
      rw [List.page_overwrite hpagelen (by omega), hpage, hstep]
    · rw [if_pos hr, wp_pure]
      exact ⟨rfl, hcard'.trans hcard, _, _, rfl, hlen'', hr⟩

/-- `writeBlock` leaves the other blocks, and if it does not fail its block holds the pages of the
buffer. -/
theorem wp_writeBlock_fragile (hflash : IsFragile env card port pages ppb pageLen) (hppb : 0 < ppb)
    (hb : b * ppb < pages) (hend : b * ppb + ppb ≤ 2 ^ 31) {buffer : Bytes}
    (hlen : ppb * pageLen ≤ buffer.length) (hsum : Checkable ppb pageLen buffer.length)
    (hlt : ppb * pageLen < 2 ^ 31) (s : Statics) (w : σ) :
    wp env (writeBlock mcDataChecksum port b buffer pageLen ppb) (fun o s' w' t => s' = s ∧
      (port, (b : ℤ)) ∈ erasures t ∧ (∀ p, p / ppb ≠ b → card w' p = card w p) ∧
      ∃ r, o = .ret r ∧ (r = 0 → card w' = overlay (card w) (b * ppb) ppb (buffer.page pageLen)))
      s w := by
  have herase := hflash.erase w b hb
  unfold writeBlock
  rw [wp_bind, wp_perform, Post.seq_ret]
  by_cases hr : (env w (.eraseBlock port 0 b)).1 = 0
  · rw [if_neg (not_not.mpr hr), wp_bind]
    refine wp_mono env ?_ (wp_count env (Q := fun o s' w' t => s' = s ∧
        (port, (b : ℤ)) ∈ erasures t ∧ (∀ p, p / ppb ≠ b → card w' p = card w p) ∧
        ∃ r, o = .ret r ∧ r ≠ 0)
      (fun j _ s' w' t => s' = s ∧ (port, (b : ℤ)) ∈ erasures t ∧
        (∀ p, p / ppb ≠ b → card w' p = card w p) ∧
        ∀ i < j, card w' (b * ppb + i) = buffer.page pageLen i) ?_ ppb 0 (Nat.zero_add ppb)
      (h := [⟨.eraseBlock port 0 b, (env w (.eraseBlock port 0 b)).1⟩])
      ⟨rfl, List.mem_cons_self, herase, fun i hi => absurd hi (Nat.not_lt_zero i)⟩)
    · rintro ((ecc | r) | e) s' w' t hQ
      · obtain ⟨rfl, hmem, hout, hin⟩ := hQ
        rw [Post.seq_ret, wp_pure, Post.after_apply, Post.after_apply, List.append_nil]
        exact ⟨rfl, hmem, hout, 0, rfl, fun _ => overlay_block hppb hout hin⟩
      · obtain ⟨rfl, hmem, hout, r', hr', hne⟩ := hQ
        cases hr'
        rw [Post.seq_ret, wp_pure, Post.after_apply, Post.after_apply, List.append_nil]
        exact ⟨rfl, hmem, hout, r, rfl, fun h => absurd h hne⟩
      · obtain ⟨-, -, -, r', hr', -⟩ := hQ
        cases hr'
    · rintro j ecc s' w' t hj ⟨rfl, hmem, hout, hin⟩
      have hle := page_le hj hlen
      have hle' := page_le hj (Nat.le_refl (ppb * pageLen))
      have hpages : (b * ppb + j) / ppb * ppb < pages := by
        rw [page_block hj]
        exact hb
      have hkeeps := hflash.write_keeps w' (b * ppb + j) (buffer.page pageLen j)
        (checksums mcDataChecksum buffer (j * pageLen) ecc) hpages (List.length_slice hle)
      have hwrite := hflash.write w' (b * ppb + j) (buffer.page pageLen j)
        (checksums mcDataChecksum buffer (j * pageLen) ecc) hpages (List.length_slice hle)
      unfold writeBlockPage
      rw [checked_place (by omega), pure_bind, Int.toNat_natCast, if_pos (hsum.page hj),
        checked_page hj hend, if_pos hle, wp_bind, wp_perform, Post.seq_ret]
      unfold List.page at hkeeps hwrite
      revert hkeeps hwrite
      generalize env w' (.writePage port 0 (b * ppb + j : ℕ) _ _) = a
      intro hkeeps hwrite
      have hout' : ∀ p, p / ppb ≠ b → card a.2 p = card w p := by
        intro p hp
        refine (hkeeps p fun h => hp ?_).trans (hout p hp)
        rw [h, page_block hj]
      have hmem' : ∀ t', (port, (b : ℤ)) ∈ erasures (t ++ t') := fun t' => by
        rw [erasures_append]
        exact List.mem_append_left _ hmem
      by_cases hr' : a.1 = 0
      · rw [if_neg (not_not.mpr hr'), wp_pure]
        refine ⟨rfl, hmem' _, hout', fun i hi => ?_⟩
        by_cases hij : i = j
        · subst hij
          exact hwrite hr'
        · rw [hkeeps _ (by omega)]
          exact hin i (by omega)
      · rw [if_pos hr', wp_pure]
        exact ⟨rfl, hmem' _, hout', _, rfl, hr'⟩
  · rw [if_pos hr, wp_pure]
    exact ⟨rfl, List.mem_cons_self, herase, _, rfl, fun h => absurd h hr⟩

/-- `injectPages` leaves the other blocks, and its own as it was if that is not erased. If it does
not fail, the pages it is handed lie over those of the card. -/
theorem wp_injectPages_fragile (hflash : IsFragile env card port pages ppb pageLen) (hppb : 0 < ppb)
    (hb : b * ppb < pages) (hend : b * ppb + ppb ≤ 2 ^ 31) {s : Statics} {scratch : Bytes}
    (hs : s.bbuffer = some scratch) (hlen : ppb * pageLen ≤ scratch.length)
    (hsum : Checkable ppb pageLen scratch.length) (hlt : ppb * pageLen < 2 ^ 31)
    {offset nPages : ℕ} {buffer : Bytes} (hpages : offset + nPages ≤ ppb)
    (hbuf : nPages * pageLen ≤ buffer.length) (w : σ) :
    wp env (injectPages mcDataChecksum port b pageLen offset nPages ppb buffer)
    (fun o s' w' t => Kept s s' ∧
      (∀ p, p / ppb ≠ b → card w' p = card w p) ∧
      ((port, (b : ℤ)) ∉ erasures t → card w' = card w) ∧ ∃ r, o = .ret r ∧
      (r = 0 → card w' = overlay (card w) (b * ppb + offset) nPages (buffer.page pageLen)))
      s w := by
  have hstretch : (offset + nPages) * pageLen ≤ ppb * pageLen := Nat.mul_le_mul_right pageLen hpages
  have hoffset : offset * pageLen ≤ (offset + nPages) * pageLen :=
    Nat.mul_le_mul_right pageLen (by omega)
  have htake : (buffer.take (nPages * pageLen)).length = nPages * pageLen := by simp [hbuf]
  have hpage : ∀ i < nPages, (buffer.take (nPages * pageLen)).page pageLen i =
      buffer.page pageLen i :=
    fun i => List.page_take
  -- what is left to do when the scratch buffer has been read, or need not be
  have hrest : ∀ (s₁ : Statics) (b₁ : Bytes) (w₁ : σ) (h : List (Event McCall McResp)), Kept s s₁ →
      s₁.bbuffer = some b₁ → b₁.length = scratch.length → card w₁ = card w →
      overlay (card w) (b * ppb) ppb
        (overlay (b₁.page pageLen) offset nPages (buffer.page pageLen)) =
        overlay (card w) (b * ppb + offset) nPages (buffer.page pageLen) →
      wp env (injectBuffer pageLen offset nPages buffer >>= fun _ =>
        Prog.read >>= fun s₂ : Statics =>
        writeBlock mcDataChecksum port b s₂.scratch pageLen ppb) (fun o s' w' t => Kept s s' ∧
          (∀ p, p / ppb ≠ b → card w' p = card w p) ∧
          ((port, (b : ℤ)) ∉ erasures (h ++ t) → card w' = card w) ∧ ∃ r, o = .ret r ∧
          (r = 0 → card w' = overlay (card w) (b * ppb + offset) nPages (buffer.page pageLen)))
        s₁ w₁ := by
    intro s₁ b₁ w₁ h hkept hs₁ hlen₁ hcard hpatch
    have hsize : (b₁.overwrite (offset * pageLen) (buffer.take (nPages * pageLen))).length =
        scratch.length := by
      rw [List.length_overwrite (by rw [htake, ← Nat.add_mul]; omega), hlen₁]
    rw [wp_bind, wp_injectBuffer hs₁ (by omega) (by omega) hbuf, Post.seq_ret, wp_bind,
      wp_read, Post.seq_ret, Statics.scratch_some]
    refine wp_mono env ?_ (wp_writeBlock_fragile mcDataChecksum hflash hppb hb hend
      (by rw [hsize]; exact hlen) (by rw [hsize]; exact hsum) hlt _ _)
    rintro o s' w' t ⟨rfl, hmem, hout, r, rfl, hdone⟩
    rw [hcard] at hout hdone
    refine ⟨hkept.trans ⟨rfl, rfl, ?_⟩, hout, fun hnot => absurd ?_ hnot, r, rfl, fun hr => ?_⟩
    · rw [hs₁, Option.map_some, Option.map_some, hsize, hlen₁]
    · rw [erasures_append]
      exact List.mem_append_right _ hmem
    · rw [hdone hr, ← hpatch, List.page_overwrite htake (by omega)]
      exact overlay_congr (fun _ _ => rfl) fun i _ =>
        congrFun (overlay_congr (fun _ _ => rfl) hpage) i
  unfold injectPages fetchBlock
  rw [wp_bind]
  by_cases hpart : (offset : ℤ) ≠ 0 ∨ (nPages : ℤ) ≠ ppb
  · rw [if_pos hpart, wp_bind, wp_read, Post.seq_ret, wp_bind, Statics.scratch, hs]
    refine wp_mono env ?_ (wp_readBlock_fragile hflash hppb hb hend hlen hlt s w)
    rintro o s' w' t ⟨rfl, hcard, r, buffer', rfl, hlen', hpage'⟩
    rw [Post.seq_ret, wp_bind, wp_modify, Post.seq_ret, wp_pure, Post.after_apply,
      Post.after_apply, Post.after_apply, Post.seq_ret]
    have hkept : Kept s' { s' with bbuffer := s'.bbuffer.map fun _ => buffer' } := by
      refine ⟨rfl, rfl, ?_⟩
      rw [hs]
      exact congrArg some hlen'
    by_cases hr : r = 0
    · rw [if_neg (not_not.mpr hr)]
      refine hrest _ buffer' w' _ hkept (by rw [hs]; rfl) hlen' hcard ?_
      rw [hpage' hr]
      exact overlay_patch hpages
    · rw [if_pos hr, wp_pure]
      exact ⟨hkept, fun p _ => congrFun hcard p, fun _ => hcard, r, rfl, fun h => absurd h hr⟩
  · obtain ⟨hzero, hall⟩ := not_or.mp hpart
    obtain rfl : offset = 0 := by omega
    obtain rfl : nPages = ppb := by omega
    rw [if_neg hpart, wp_pure, Post.seq_ret, if_neg (by simp)]
    exact hrest s scratch w [] (.refl s) hs rfl rfl overlay_whole

end Parts

/-! ### A write -/

/-- A write that fails is cut short at a block: the pages before it are written, and those after it
are not. The block itself is as it was, if it was not erased; else nothing is known of it. -/
structure CutAt (port : ℤ) (ppb offset count b : ℕ) (page before after : ℕ → Bytes)
    (t : List (Event McCall McResp)) : Prop where
  /-- It is no block before the range. -/
  ge : offset / ppb ≤ b
  /-- It is no block after it. -/
  le : b ≤ (offset + count - 1) / ppb
  /-- The other blocks. -/
  others : ∀ p, p / ppb ≠ b →
    after p = overlay before offset (reached offset count ppb b - offset) page p
  /-- The block. -/
  spared : (port, (b : ℤ)) ∉ erasures t →
    after = overlay before offset (reached offset count ppb b - offset) page

section Write

variable (mcDataChecksum : Bytes → Vector UInt8 3) {σ : Type} {env : Env McCall McResp σ}
  {card : σ → ℕ → Bytes} {s : Statics} {d : HandleIdx} {pages : ℕ}

/-- A write is done, or is cut short at a block. -/
theorem wp_mcmanPwrite_fragile (hs : Ready s d)
    (hflash : IsFragile env card (s.handles d).device pages
      s.pagesPerBlock.toNat (s.handles d).blocksize.toNat)
    (hpage : 512 ≤ (s.handles d).blocksize.toNat) (buf : Object) (count : UInt32)
    (offset : UInt64) (flags : UInt32) (hcount : 1 ≤ count.toNat)
    (hbuf : buf.bytes.length = count.toNat * (s.handles d).blocksize.toNat)
    (hcard : offset.toNat + count.toNat ≤ pages) (w : σ) :
    wp env (mcmanPwrite mcDataChecksum d buf.bytes count offset flags)
    (fun o s' w' t => Kept s s' ∧ ∃ r, o = .ret r ∧
      (r = 0 → card w' = overlay (card w) offset.toNat count.toNat
      (buf.bytes.page (s.handles d).blocksize.toNat)) ∧
      (r ≠ 0 → ∃ b, CutAt (s.handles d).device s.pagesPerBlock.toNat offset.toNat count.toNat b
        (buf.bytes.page (s.handles d).blocksize.toNat) (card w) (card w') t)) s w := by
  have hpos := hs.pos
  have hsize := hflash.size
  have hle : offset.toNat / s.pagesPerBlock.toNat ≤ offset.toNat := Nat.div_le_self _ _
  have hle' : (offset.toNat + count.toNat - 1) / s.pagesPerBlock.toNat ≤
      offset.toNat + count.toNat - 1 :=
    Nat.div_le_self _ _
  rw [mcmanPwrite_eq mcDataChecksum count offset flags _ hs, Nat.mod_eq_of_lt (by omega),
    asInt_eq (by omega),
    asInt_eq (by omega), lastBlock_eq hcount (by omega) (by omega)]
  refine wp_pwriteLoop mcDataChecksum hpos hcount (by omega) (by omega) hbuf buf.length_lt
    (fun b s' w' _ => Kept s s' ∧ card w' = overlay (card w) offset.toNat
      (reached offset.toNat count.toNat s.pagesPerBlock.toNat b - offset.toNat)
      (buf.bytes.page (s.handles d).blocksize.toNat)) ?_ ?_ ?_ ?_
  · rintro b s' w' t ⟨hkept, -⟩
    rw [hkept.pagesPerBlock]
  · rintro b s' w' t hlo hhi ⟨hkept, hover⟩
    obtain ⟨hb, hb'⟩ := block_start hpos hcount hlo hhi
    obtain ⟨hr, hr'⟩ := reached_block hpos hcount hlo hhi
    obtain ⟨scratch, hscratch, hlen⟩ := hkept.scratch hs
    have hplace : b * s.pagesPerBlock.toNat +
        (reached offset.toNat count.toNat s.pagesPerBlock.toNat b - b * s.pagesPerBlock.toNat) =
        offset.toNat + (reached offset.toNat count.toNat s.pagesPerBlock.toNat
          b - offset.toNat) := by omega
    have hrest := length_left hpos hcount hlo hhi hbuf
    refine wp_mono env ?_ (wp_injectPages_fragile mcDataChecksum hflash hpos (by omega)
      (hs.block_fits (by omega)) hscratch
      hlen (checkable_of_le hpos hpage hlen) hs.block_lt (by omega) hrest w')
    rintro o s'' w'' t' ⟨hkept', hout, hspared, r, rfl, hdone⟩
    rw [hover] at hout hspared hdone
    unfold blockPost
    dsimp only
    by_cases hr0 : r = 0
    · rw [if_neg (not_not.mpr hr0), if_pos (by omega)]
      refine ⟨hkept.trans hkept', ?_⟩
      rw [hdone hr0, hplace]
      have hshift :
          (buf.bytes.drop ((reached offset.toNat count.toNat s.pagesPerBlock.toNat
          b - offset.toNat) * (s.handles d).blocksize.toNat)).page (s.handles d).blocksize.toNat =
          fun i =>
            buf.bytes.page (s.handles d).blocksize.toNat
              (reached offset.toNat count.toNat s.pagesPerBlock.toNat b - offset.toNat + i) :=
        funext fun i => List.page_drop _ _ _ i
      rw [hshift, overlay_overlay]
      congr 1
      omega
    · rw [if_pos hr0]
      refine ⟨hkept.trans hkept', r, rfl, fun h => absurd h hr0,
        fun _ => ⟨b, hlo, hhi, hout, fun hnot => hspared ?_⟩⟩
      refine fun hmem => hnot ?_
      rw [erasures_append]
      exact List.mem_append_right _ hmem
  · rintro s' w' t ⟨hkept, hover⟩
    rw [reached_last hpos hcount, Nat.add_sub_cancel_left] at hover
    exact ⟨hkept, 0, rfl, fun _ => hover, fun h => absurd rfl h⟩
  · refine ⟨.refl s, ?_⟩
    rw [reached_first, Nat.sub_self, overlay_zero]

end Write

/-! ### Many writes -/

/-- What a write is given. -/
structure Write where
  /-- The bytes. -/
  buf : Object
  /-- The number of pages. -/
  count : UInt32
  /-- The first page. -/
  offset : UInt64

/-- A write of some pages of the card. -/
structure Write.Fits (x : Write) (pages pageLen : ℕ) : Prop where
  /-- There are some. -/
  count : 1 ≤ x.count.toNat
  /-- There are bytes for all of them. -/
  buf : x.buf.bytes.length = x.count.toNat * pageLen
  /-- They are on the card. -/
  on_card : x.offset.toNat + x.count.toNat ≤ pages

/-- A disk of pages, when the first `n` pages of a write are written. -/
def Write.onto (x : Write) (pageLen : ℕ) (f : ℕ → Bytes) (n : ℕ) : ℕ → Bytes :=
  overlay f x.offset.toNat n (x.buf.bytes.page pageLen)

/-- The pages of a write that are before block `b`. -/
def Write.upTo (x : Write) (ppb b : ℕ) : ℕ :=
  reached x.offset.toNat x.count.toNat ppb b - x.offset.toNat

/-- Block `b` has pages of a write. -/
def Write.Touches (x : Write) (ppb b : ℕ) : Prop :=
  x.offset.toNat / ppb ≤ b ∧ b ≤ (x.offset.toNat + x.count.toNat - 1) / ppb

/-- `mcman_pwrite`, for one write after the other, with the results. -/
def mcmanPwrites (mcDataChecksum : Bytes → Vector UInt8 3) (d : HandleIdx) :
    List Write → Mc (List ℤ)
  | [] => pure []
  | x :: xs => do
    let r ← mcmanPwrite mcDataChecksum d x.buf.bytes x.count x.offset 0
    let rs ← mcmanPwrites mcDataChecksum d xs
    pure (r :: rs)

/-- A disk of pages of which writes may be cut short: it goes from `f` to `g`, and blocks `bad` are
damaged. -/
inductive Written (ppb pageLen : ℕ) :
    List Write → (ℕ → Bytes) → List ℤ → List ℕ → (ℕ → Bytes) → Prop
  /-- There is nothing to write. -/
  | nil {f : ℕ → Bytes} : Written ppb pageLen [] f [] [] f
  /-- A write is done. -/
  | stored {x : Write} {xs : List Write} {f g : ℕ → Bytes} {rs : List ℤ} {bad : List ℕ} :
    Written ppb pageLen xs (x.onto pageLen f x.count.toNat) rs bad g →
    Written ppb pageLen (x :: xs) f (0 :: rs) bad g
  /-- A write is cut short at a block. -/
  | cut {x : Write} {xs : List Write} {f g : ℕ → Bytes} {r : ℤ} {rs : List ℤ}
      {bad : List ℕ} {b : ℕ} : r ≠ 0 →
    x.Touches ppb b → Written ppb pageLen xs (x.onto pageLen f (x.upTo ppb b)) rs bad g →
    Written ppb pageLen (x :: xs) f (r :: rs) bad g
  /-- It has damaged the block. -/
  | damaged {x : Write} {xs : List Write} {f g : ℕ → Bytes} {r : ℤ} {rs : List ℤ}
      {bad : List ℕ} {b : ℕ} : r ≠ 0 →
    x.Touches ppb b → Written ppb pageLen xs (x.onto pageLen f (x.upTo ppb b)) rs bad g →
    Written ppb pageLen (x :: xs) f (r :: rs) (b :: bad) g

/-- A write that fails damages one block at most. -/
theorem Written.length_bad {ppb pageLen : ℕ} {xs : List Write} {f g : ℕ → Bytes}
    {rs : List ℤ} {bad : List ℕ} (h : Written ppb pageLen xs f rs bad g) :
    bad.length ≤ (rs.filter (· ≠ 0)).length := by
  induction h with
  | nil => exact Nat.le_refl _
  | stored _ ih =>
    rw [List.filter_cons_of_neg (by simp)]
    exact ih
  | cut hr _ _ ih =>
    rw [List.filter_cons_of_pos (by simpa using hr), List.length_cons]
    exact Nat.le_succ_of_le ih
  | damaged hr _ _ ih =>
    rw [List.filter_cons_of_pos (by simpa using hr), List.length_cons, List.length_cons]
    exact Nat.succ_le_succ ih

/-- A write that failed has erased the block: the first of these writes, or one that comes after
it. -/
def ErasedByFailure (mcDataChecksum : Bytes → Vector UInt8 3) {σ : Type}
    (env : Env McCall McResp σ) (d : HandleIdx) (e : ℤ × ℤ) : List Write → Statics → σ → Prop
  | [], _, _ => False
  | x :: xs, s, w =>
    let z := (mcmanPwrite mcDataChecksum d x.buf.bytes x.count x.offset 0).run env s w
    (z.out ≠ .ret 0 ∧ e ∈ erasures z.trace) ∨ ErasedByFailure mcDataChecksum env d e xs z.mem z.env

section Writes

variable (mcDataChecksum : Bytes → Vector UInt8 3) {σ : Type} {env : Env McCall McResp σ}
  {card : σ → ℕ → Bytes} {s s₀ : Statics} {d : HandleIdx} {pages : ℕ} {xs : List Write}

/-- Writes, from a card that is as `f` but for some blocks, leave it as the disk would be, but for
these and the ones that they damage. -/
theorem wp_mcmanPwrites (hs : Ready s₀ d) (hflash : IsFragile env card (s₀.handles d).device pages
      s₀.pagesPerBlock.toNat (s₀.handles d).blocksize.toNat)
    (hpage : 512 ≤ (s₀.handles d).blocksize.toNat)
    (hfits : ∀ x ∈ xs, x.Fits pages (s₀.handles d).blocksize.toNat) {f : ℕ → Bytes} {bad₀ : List ℕ}
    (hkept : Kept s₀ s) {w : σ} (hcard : ∀ p, p / s₀.pagesPerBlock.toNat ∉ bad₀ → card w p = f p) :
    wp env (mcmanPwrites mcDataChecksum d xs) (fun o _ w' _ => ∃ rs bad g, o = .ret rs ∧
      Written s₀.pagesPerBlock.toNat (s₀.handles d).blocksize.toNat xs f rs bad g ∧
      (∀ b ∈ bad, ErasedByFailure mcDataChecksum env d ((s₀.handles d).device, (b : ℤ)) xs s w) ∧
      ∀ p, p / s₀.pagesPerBlock.toNat ∉ bad₀ → p / s₀.pagesPerBlock.toNat ∉ bad →
      card w' p = g p) s w := by
  induction xs generalizing s w f bad₀ with
  | nil =>
    exact ⟨[], [], f, rfl, .nil, fun b hb => absurd hb List.not_mem_nil, fun p hp _ => hcard p hp⟩
  | cons x xs ih =>
    obtain ⟨hcount, hbuf, hon⟩ := hfits x List.mem_cons_self
    have hwrite := wp_mcmanPwrite_fragile mcDataChecksum (hkept.ready hs) (by
      rw [hkept.handles, hkept.pagesPerBlock]
      exact hflash) (by
      rw [hkept.handles]
      exact hpage) x.buf x.count x.offset 0 hcount (by
      rw [hkept.handles]
      exact hbuf) hon w
    rw [hkept.handles, hkept.pagesPerBlock] at hwrite
    rw [mcmanPwrites, wp_bind]
    refine wp_mono env ?_ (wp_and hwrite (wp_run env _ s w))
    rintro o s₁ w₁ t ⟨⟨hkept₁, r, rfl, hdone, hcut⟩, hrun⟩
    rw [Post.seq_ret, wp_bind]
    have hrest (f' : ℕ → Bytes) (bad' : List ℕ) (h : ∀ p, p / s₀.pagesPerBlock.toNat ∉ bad' →
        card w₁ p = f' p) :=
      ih (fun y hy => hfits y (List.mem_cons_of_mem _ hy)) (hkept.trans hkept₁) h
    have hlater {e : ℤ × ℤ} (h : ErasedByFailure mcDataChecksum env d e xs s₁ w₁) :
        ErasedByFailure mcDataChecksum env d e (x :: xs) s w := by
      rw [ErasedByFailure, hrun]
      exact .inr h
    by_cases hr : r = 0
    · subst hr
      refine wp_mono env ?_ (hrest (x.onto (s₀.handles d).blocksize.toNat f x.count.toNat) bad₀ ?_)
      · rintro o s₂ w₂ t' ⟨rs, bad, g, rfl, hwritten, hbad, hg⟩
        exact ⟨0 :: rs, bad, g, rfl, .stored hwritten, fun b hb => hlater (hbad b hb), hg⟩
      · intro p hp
        rw [hdone rfl]
        exact overlay_agree (hcard p hp)
    · obtain ⟨b, hge, hle, hothers, hspared⟩ := hcut hr
      by_cases hmem : ((s₀.handles d).device, (b : ℤ)) ∈ erasures t
      · have hfirst : ErasedByFailure mcDataChecksum env d ((s₀.handles d).device, (b : ℤ))
            (x :: xs) s w := by
          rw [ErasedByFailure, hrun]
          exact .inl ⟨fun h => hr (Outcome.ret.inj h), hmem⟩
        refine wp_mono env ?_ (hrest
          (x.onto (s₀.handles d).blocksize.toNat f (x.upTo s₀.pagesPerBlock.toNat b)) (b :: bad₀)
          ?_)
        · rintro o s₂ w₂ t' ⟨rs, bad, g, rfl, hwritten, hbad, hg⟩
          refine ⟨r :: rs, b :: bad, g, rfl, .damaged hr ⟨hge, hle⟩ hwritten,
            fun b' hb' => ?_, fun p hp hp' => ?_⟩
          · obtain rfl | hb' := List.mem_cons.mp hb'
            · exact hfirst
            · exact hlater (hbad b' hb')
          · obtain ⟨hne, hnot⟩ := not_or.mp (mt List.mem_cons.mpr hp')
            exact hg p (fun h => (List.mem_cons.mp h).elim hne hp) hnot
        · intro p hp
          obtain ⟨hne, hnot⟩ := not_or.mp (mt List.mem_cons.mpr hp)
          rw [hothers p hne]
          exact overlay_agree (hcard p hnot)
      · refine wp_mono env ?_ (hrest
          (x.onto (s₀.handles d).blocksize.toNat f (x.upTo s₀.pagesPerBlock.toNat b)) bad₀ ?_)
        · rintro o s₂ w₂ t' ⟨rs, bad, g, rfl, hwritten, hbad, hg⟩
          exact ⟨r :: rs, bad, g, rfl, .cut hr ⟨hge, hle⟩ hwritten, fun b hb => hlater (hbad b hb),
            hg⟩
        · intro p hp
          rw [hspared hmem]
          exact overlay_agree (hcard p hp)

end Writes

/-- **Damage is confined.** Whatever is written to a card, and whichever calls fail, no more blocks
are damaged than writes have failed, each of them was erased by a write that failed, and every other
block is as on a disk of pages whose writes were done, or cut short at a block when they have
failed. -/
theorem damage_confined (mcDataChecksum : Bytes → Vector UInt8 3) {σ : Type}
    {env : Env McCall McResp σ} {card : σ → ℕ → Bytes} {s : Statics} {d : HandleIdx}
    {pages : ℕ} (hs : Ready s d)
    (hflash : IsFragile env card (s.handles d).device pages s.pagesPerBlock.toNat
      (s.handles d).blocksize.toNat)
    (hpage : 512 ≤ (s.handles d).blocksize.toNat) {xs : List Write}
    (hfits : ∀ x ∈ xs, x.Fits pages (s.handles d).blocksize.toNat) (w : σ) :
    let z := (mcmanPwrites mcDataChecksum d xs).run env s w
    ∃ rs bad g, z.out = .ret rs ∧
      Written s.pagesPerBlock.toNat (s.handles d).blocksize.toNat xs (card w) rs bad g ∧
      bad.length ≤ (rs.filter (· ≠ 0)).length ∧
      (∀ b ∈ bad, ErasedByFailure mcDataChecksum env d ((s.handles d).device, (b : ℤ)) xs s w) ∧
      ∀ p, p / s.pagesPerBlock.toNat ∉ bad → card z.env p = g p := by
  have hsame : ∀ p, p / s.pagesPerBlock.toNat ∉ ([] : List ℕ) → card w p = card w p :=
    fun p _ => rfl
  obtain ⟨rs, bad, g, hout, hwritten, herased, hcard⟩ :=
    wp_mcmanPwrites mcDataChecksum hs hflash hpage hfits (.refl s) hsame
  exact ⟨rs, bad, g, hout, hwritten, hwritten.length_bad, herased,
    fun p => hcard p List.not_mem_nil⟩

namespace Sample

/-- Twenty pages from page 10 on, and three from page 40 on. -/
def two : List Write :=
  [⟨⟨List.replicate 10240 7, by rw [List.length_replicate]; omega⟩, 20, 10⟩,
    ⟨⟨List.replicate 1536 9, by rw [List.length_replicate]; omega⟩, 3, 40⟩]

end Sample

/-- The power of a card fails when the second of two writes has erased its block. -/
theorem damage_confined_two :
    let z :=
      (mcmanPwrites Sample.checksum 0 Sample.two).run (powered (Sample.flash 512 16)) Sample.mounted
      (fun _ => .replicate 512 0, 84)
    ∃ rs bad g, z.out = .ret rs ∧
    Written 16 512 Sample.two (fun _ => List.replicate 512 0) rs bad g ∧
      bad.length ≤ (rs.filter (· ≠ 0)).length ∧
      (∀ b ∈ bad, ErasedByFailure Sample.checksum (powered (Sample.flash 512 16)) 0 (0, (b : ℤ))
      Sample.two Sample.mounted
        (fun _ => .replicate 512 0, 84)) ∧
      ∀ p, p / 16 ∉ bad → (z.env.1 p).toList = g p := by
  have hfits : ∀ x ∈ Sample.two, x.Fits 16384 512 := by
    intro x hx
    obtain rfl | hx := List.mem_cons.mp hx
    · exact ⟨by decide, List.length_replicate, by decide⟩
    · rw [List.mem_singleton.mp hx]
      exact ⟨by decide, List.length_replicate, by decide⟩
  exact damage_confined Sample.checksum Sample.mounted_ready
    (Sample.flash_isFlash (by omega : 16384 < 2 ^ 31) 0).powered (by decide) hfits _

end LwNBD.Mcman
