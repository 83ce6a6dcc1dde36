import LwNBD.Plugins.Pages

/-!
# Blocks erased by a write

Which blocks `mcman_pwrite` erases, whatever the card library answers. It should erase only blocks
that have a page of the range to be written, each once and in order, and stop at the first call that
fails. And it does, for a range that is not empty and is within reach of an `int`, if what checksums
are taken of is in the scratch buffer: 512 bytes of each page, also of a shorter one. But the last
block is found as `(offset + count - 1) / pagesPerBlock`: for an empty range that starts within a
block this is the first block, which is then read, erased and written for nothing, and for an empty
range at the start of the card the subtraction goes below zero, and the loop goes on from the first
block as if it were the card's end that is asked for.

## The model

* `status`, `erasures` — the status of a call, and the blocks that are erased.
* `Footprint` — what is asked of a run.
* `Spared` — when it holds.

## What is proved

* `wp_readBlock_ends`, `wp_writeBlock_ends`, `wp_injectPages_ends` — how the parts end, for every
  schedule of failures.
* `footprint_iff` — `Footprint` holds of every run exactly when `Spared` does.
-/

namespace LwNBD.Mcman

open Resumption

/-- The status of a call to the card. -/
def status : Event McCall McResp → ℤ
  | ⟨.eraseBlock .., (r : ℤ)⟩ => r
  | ⟨.readPage .., (r : PageRead)⟩ => r.ret
  | ⟨.writePage .., (r : ℤ)⟩ => r
  | _ => 0

/-- The block that a call erases, with its port. -/
def McCall.erased : McCall → Option (ℤ × ℤ)
  | .eraseBlock port _ block => some (port, block)
  | _ => none

/-- The blocks that are erased, in order. -/
def erasures (t : List (Event McCall McResp)) : List (ℤ × ℤ) := (calls t).filterMap McCall.erased

@[simp] theorem erasures_nil : erasures [] = [] := rfl

@[simp] theorem erasures_append (t t' : List (Event McCall McResp)) :
    erasures (t ++ t') = erasures t ++ erasures t' := by
  rw [erasures, calls_append, List.filterMap_append, erasures, erasures]

/-- What is asked of a write of the pages from `offset` up to `offset + count`. -/
structure Footprint (port : ℤ) (ppb offset count : ℕ) (o : Outcome ℤ)
    (t : List (Event McCall McResp)) : Prop where
  /-- A block that is erased has a page of the range. -/
  within : ∀ e ∈ erasures t, e.1 = port ∧ ∃ p, offset ≤ p ∧ p < offset + count ∧ e.2 = (p / ppb : ℕ)
  /-- Each is erased once, in order. -/
  order : (erasures t).Pairwise fun e e' => e.2 < e'.2
  /-- It stops at the first call that fails. -/
  stops : ∃ r, o = .ret r ∧ Stops status r t
  /-- There is nothing to do for an empty range. -/
  empty : count = 0 → o = .ret 0 ∧ t = []

/-- When it holds, for a scratch buffer of `size` bytes: an empty range has to start at the start of
a block, other than the first, and one that is not has to be of pages and blocks that have numbers
in an `int`, and of which the checksums can be taken. Or else the number of its last block, in 64
bits and then cut to 32, is below that of its first: then there is nothing to do either. -/
def Spared (ppb pageLen size offset count : ℕ) : Prop :=
  if count = 0 then ppb ∣ offset ∧ offset / ppb % 2 ^ 32 ≠ 0
  else (offset + count ≤ 2 ^ 31 ∧ (offset + count - 1) / ppb + 1 < 2 ^ 31 ∧
    Checkable ppb pageLen size) ∨ (offset + count - 1) % 2 ^ 64 / ppb % 2 ^ 32 <
    offset / ppb % 2 ^ 32

/-- All that a card library may answer: it stores no more than a page. -/
def Answers {σ : Type} (env : Env McCall McResp σ) (pageLen : ℕ) : Prop :=
  ∀ w port slot page, (env w (.readPage port slot page)).1.data.length ≤ pageLen

/-! ### The parts -/

/-- The numbers of the pages of a block are `int`s. -/
def BlockFits (block : ℤ) (ppb : ℕ) : Prop := -2 ^ 31 ≤ block * ppb ∧ block * ppb + ppb ≤ 2 ^ 31

theorem blockFits_natCast {b ppb : ℕ} (h : b * ppb + ppb ≤ 2 ^ 31) : BlockFits b ppb := by
  unfold BlockFits
  have hcast : (b : ℤ) * ppb = (b * ppb : ℕ) := by push_cast; rfl
  rw [hcast]
  omega

/-- A block can be written from a buffer of `size` bytes. -/
structure Writable (block : ℤ) (ppb pageLen size : ℕ) : Prop where
  /-- The numbers of its pages are `int`s. -/
  fits : BlockFits block ppb
  /-- The checksums of its pages can be taken. -/
  checkable : Checkable ppb pageLen size

section Parts

variable (mcDataChecksum : Bytes → Vector UInt8 3) {σ α : Type}
  {env : Env McCall McResp σ} {port block : ℤ} {ppb pageLen : ℕ}

/-- The number of a page is an `int`, or what comes is undefined. -/
theorem wp_page {j : ℕ} {f : ℤ → Mc α} {Q : Post Statics McCall McResp σ α} {s : Statics} {w : σ}
    (hfits : -2 ^ 31 ≤ block * ppb → block * ppb + j < 2 ^ 31 → wp env (f (block * ppb + j)) Q s w)
    (hnot : ¬ (-2 ^ 31 ≤ block * ppb ∧ block * ppb + j < 2 ^ 31) → Q (.halt .undefined) s w []) :
    wp env (checked (block * ppb) >>= fun first => checked (first + j) >>= f) Q s w := by
  by_cases hfirst : -2 ^ 31 ≤ block * ppb ∧ block * ppb < 2 ^ 31
  · rw [checked_eq hfirst.1 hfirst.2, pure_bind]
    by_cases hpage : block * ppb + j < 2 ^ 31
    · rw [checked_eq (by omega) hpage, pure_bind]
      exact hfits hfirst.1 hpage
    · rw [checked_undefined (by omega)]
      exact hnot (by omega)
  · rw [checked_undefined hfirst]
    exact hnot (by omega)

/-- `readBlock` erases nothing, and ends at the first page that is not read. -/
theorem wp_readBlock_ends (henv : Answers env pageLen) (hppb : 0 < ppb) {buffer : Bytes}
    (hlen : ppb * pageLen ≤ buffer.length) (hlt : ppb * pageLen < 2 ^ 31) (s : Statics) (w : σ) :
    wp env (readBlock port block buffer pageLen ppb) (fun o s' _ t => s' = s ∧ erasures t = [] ∧
      (o = .halt .undefined ∧ ¬ BlockFits block ppb ∨ ∃ r buffer', o = .ret (r, buffer') ∧
        buffer'.length = buffer.length ∧ Stops status r t)) s w := by
  unfold readBlock
  rw [wp_bind]
  refine wp_mono env ?_ (wp_count env (Q := fun o s' _ t => s' = s ∧ erasures t = [] ∧
      (o = .halt .undefined ∧ ¬ BlockFits block ppb ∨ ∃ r buffer', o = .ret (r, buffer') ∧
        buffer'.length = buffer.length ∧ Stops status r t))
    (fun j buffer' s' _ t => s' = s ∧ erasures t = [] ∧ buffer'.length = buffer.length ∧
      Clean status t)
    ?_ ppb 0 (Nat.zero_add ppb) (h := []) ⟨rfl, rfl, rfl, .nil⟩)
  · rintro ((buffer' | r) | e) s' w' t hQ
    · obtain ⟨rfl, herased, hlen', hclean⟩ := hQ
      rw [Post.seq_ret]
      dsimp only
      rw [if_neg (by omega), wp_pure, Post.after_apply, List.append_nil]
      exact ⟨rfl, herased, .inr ⟨0, buffer', rfl, hlen', hclean.stops⟩⟩
    · rw [Post.seq_ret, wp_pure, Post.after_apply, List.append_nil]
      exact hQ
    · obtain ⟨rfl, herased, ⟨he, hnot⟩ | ⟨_, _, h, -⟩⟩ := hQ
      · cases he
        exact ⟨rfl, herased, .inl ⟨rfl, hnot⟩⟩
      · cases h
  · rintro j buffer' s' w' t hj ⟨rfl, herased, hlen', hclean⟩
    have hle := page_le hj (Nat.le_refl (ppb * pageLen))
    unfold readBlockPage
    rw [checked_place (by omega), pure_bind]
    refine wp_page (fun _ _ => ?_) fun hnot => ?_
    · have hdata := henv w' port 0 (block * ppb + j)
      rw [wp_bind, wp_perform, Post.seq_ret, Int.toNat_natCast, if_pos (by omega)]
      have hlen'' : (buffer'.overwrite (j * pageLen)
          (env w' (.readPage port 0 (block * ppb + j))).1.data).length = buffer.length := by
        rw [List.length_overwrite (by omega), hlen']
      have herased' : erasures (t ++ [⟨.readPage port 0 (block * ppb + j),
          (env w' (.readPage port 0 (block * ppb + j))).1⟩]) = [] := by
        rw [erasures_append, herased]
        rfl
      dsimp only
      by_cases hr : (env w' (.readPage port 0 (block * ppb + j))).1.ret = 0
      · rw [if_neg (not_not.mpr hr), wp_pure]
        exact ⟨rfl, herased', hlen'', hclean.concat hr⟩
      · rw [if_pos hr, wp_pure]
        exact ⟨rfl, herased', .inr ⟨_, _, rfl, hlen'', hclean.stops_concat⟩⟩
    · refine ⟨rfl, by rw [List.append_nil]; exact herased, .inl ⟨rfl, fun h => hnot ⟨h.1, ?_⟩⟩⟩
      have := h.2
      omega

/-- `writeBlock` erases its block, and ends at the first call that fails. -/
theorem wp_writeBlock_ends {buffer : Bytes} (hlen : ppb * pageLen ≤ buffer.length)
    (hlt : ppb * pageLen < 2 ^ 31) (hppb : 0 < ppb) (s : Statics) (w : σ) :
    wp env (writeBlock mcDataChecksum port block buffer pageLen ppb) (fun o s' _ t => s' = s ∧
      erasures t = [(port, block)] ∧
      (o = .halt .undefined ∧ ¬ Writable block ppb pageLen buffer.length ∨
        ∃ r, o = .ret r ∧ Stops status r t ∧ (r = 0 → Writable block ppb pageLen buffer.length)))
        s w := by
  unfold writeBlock
  rw [wp_bind, wp_perform, Post.seq_ret]
  by_cases herase : (env w (.eraseBlock port 0 block)).1 = 0
  · rw [if_neg (not_not.mpr herase), wp_bind]
    refine wp_mono env ?_ (wp_count env (Q := fun o s' _ t => s' = s ∧
        erasures t = [(port, block)] ∧
          (o = .halt .undefined ∧ ¬ Writable block ppb pageLen buffer.length ∨ ∃ r, o = .ret r ∧
          Stops status r t ∧ (r = 0 → Writable block ppb pageLen buffer.length)))
      (fun j _ s' _ t => s' = s ∧ erasures t = [(port, block)] ∧ Clean status t ∧
        (0 < j → (-2 ^ 31 ≤ block * ppb ∧ block * ppb + j ≤ 2 ^ 31) ∧
        Checkable j pageLen buffer.length)) ?_ ppb 0
      (Nat.zero_add ppb) (h := [⟨.eraseBlock port 0 block, (env w (.eraseBlock port 0 block)).1⟩])
      ⟨rfl, rfl, Clean.nil.concat herase, fun h => absurd h (Nat.lt_irrefl 0)⟩)
    · rintro ((ecc | r) | e) s' w' t hQ
      · obtain ⟨rfl, herased, hclean, hdone⟩ := hQ
        rw [Post.seq_ret, wp_pure, Post.after_apply, List.append_nil]
        exact ⟨rfl, herased, .inr ⟨0, rfl, hclean.stops, fun _ => ⟨(hdone hppb).1, (hdone hppb).2⟩⟩⟩
      · rw [Post.seq_ret, wp_pure, Post.after_apply, List.append_nil]
        exact hQ
      · exact hQ
    · rintro j ecc s' w' t hj ⟨rfl, herased, hclean, -⟩
      have hle := page_le hj hlen
      have hle' := page_le hj (Nat.le_refl (ppb * pageLen))
      unfold writeBlockPage
      rw [checked_place (by omega), pure_bind, Int.toNat_natCast]
      by_cases hsum : j * pageLen + 512 ≤ buffer.length
      · rw [if_pos hsum]
        refine wp_page (fun hlo hhi => ?_) fun hnot => ?_
        · rw [if_pos hle, wp_bind, wp_perform, Post.seq_ret]
          generalize buffer.slice (j * pageLen) pageLen = data
          generalize checksums mcDataChecksum buffer (j * pageLen) ecc = ecc'
          have herased' : erasures (t ++ [⟨.writePage port 0 (block * ppb + j) data ecc',
              (env w' (.writePage port 0 (block * ppb + j) data ecc')).1⟩]) = [(port, block)] := by
            rw [erasures_append, herased]
            rfl
          by_cases hr : (env w' (.writePage port 0 (block * ppb + j) data ecc')).1 = 0
          · rw [if_neg (not_not.mpr hr), wp_pure]
            refine ⟨rfl, herased', hclean.concat hr, fun _ => ⟨⟨hlo, ?_⟩, hsum⟩⟩
            push_cast
            omega
          · rw [if_pos hr, wp_pure]
            exact ⟨rfl, herased', .inr ⟨_, rfl, hclean.stops_concat, fun h => absurd h hr⟩⟩
        · refine ⟨rfl, by rw [List.append_nil]; exact herased,
                            .inl ⟨rfl, fun h => hnot ⟨h.fits.1, ?_⟩⟩⟩
          have := h.fits.2
          omega
      · rw [if_neg hsum, wp_halt]
        exact ⟨rfl, by rw [List.append_nil]; exact herased,
                         .inl ⟨rfl, fun h => hsum (h.checkable.page hj)⟩⟩
  · rw [if_pos herase, wp_pure]
    exact ⟨rfl, rfl, .inr ⟨_, rfl, Clean.nil.stops_concat, fun h => absurd h herase⟩⟩

/-- How a block that is written ends: as undefined, if it cannot be written; else at the first call
that fails, and if none does the block has been erased. -/
def BlockEnds (port block : ℤ) (ppb pageLen size : ℕ) (o : Outcome ℤ)
    (t : List (Event McCall McResp)) : Prop :=
  (erasures t = [] ∨ erasures t = [(port, block)]) ∧
    (o = .halt .undefined ∧ ¬ Writable block ppb pageLen size ∨ ∃ r, o = .ret r ∧ Stops status r t ∧
    (r = 0 → Writable block ppb pageLen size ∧ erasures t = [(port, block)]))

/-- How `injectPages` ends, whatever is answered. -/
theorem wp_injectPages_ends (henv : Answers env pageLen) (hppb : 0 < ppb)
    {s : Statics} {scratch : Bytes} (hs : s.bbuffer = some scratch)
    (hlen : ppb * pageLen ≤ scratch.length) (hlt : ppb * pageLen < 2 ^ 31) {offset nPages : ℕ}
    {buffer : Bytes} (hpages : offset + nPages ≤ ppb) (hbuf : nPages * pageLen ≤ buffer.length)
    (w : σ) : wp env (injectPages mcDataChecksum port block pageLen offset nPages ppb buffer)
      (fun o s' _ t => Kept s s' ∧ BlockEnds port block ppb pageLen scratch.length o t) s w := by
  have hstretch : (offset + nPages) * pageLen ≤ ppb * pageLen := Nat.mul_le_mul_right pageLen hpages
  have htake : (buffer.take (nPages * pageLen)).length = nPages * pageLen := by simp [hbuf]
  -- what is left to do when the scratch buffer has been read, or need not be
  have hrest : ∀ (s₁ : Statics) (b₁ : Bytes) (w₁ : σ) (h : List (Event McCall McResp)), Kept s s₁ →
      s₁.bbuffer = some b₁ → b₁.length = scratch.length → Clean status h → erasures h = [] →
      wp env (injectBuffer pageLen offset nPages buffer >>= fun _ =>
        Prog.read >>= fun s₂ : Statics =>
        writeBlock mcDataChecksum port block s₂.scratch pageLen ppb) (fun o s' _ t => Kept s s' ∧
          BlockEnds port block ppb pageLen scratch.length o (h ++ t)) s₁ w₁ := by
    intro s₁ b₁ w₁ h hkept hs₁ hlen₁ hclean herased
    have hsize : (b₁.overwrite (offset * pageLen) (buffer.take (nPages * pageLen))).length =
        scratch.length := by
      rw [List.length_overwrite (by rw [htake, ← Nat.add_mul]; omega), hlen₁]
    rw [wp_bind, wp_injectBuffer hs₁ (by omega) (by omega) hbuf, Post.seq_ret, wp_bind,
      wp_read, Post.seq_ret, Statics.scratch_some]
    refine wp_mono env ?_ (wp_writeBlock_ends mcDataChecksum (by rw [hsize]; exact hlen) hlt hppb
      _ _)
    rw [hsize]
    rintro o s' w' t ⟨rfl, herased', hend⟩
    refine ⟨hkept.trans ⟨rfl, rfl, ?_⟩, .inr ?_, ?_⟩
    · rw [hs₁, Option.map_some, Option.map_some, hsize, hlen₁]
    · rw [List.nil_append, List.nil_append, erasures_append, herased, herased', List.nil_append]
    · rcases hend with hundef | ⟨r, rfl, hstops, hfits⟩
      · exact .inl hundef
      · refine .inr ⟨r, rfl, hclean.stops_append hstops, fun hr => ⟨hfits hr, ?_⟩⟩
        rw [List.nil_append, List.nil_append, erasures_append, herased, herased', List.nil_append]
  unfold injectPages fetchBlock
  rw [wp_bind]
  by_cases hpart : (offset : ℤ) ≠ 0 ∨ (nPages : ℤ) ≠ ppb
  · rw [if_pos hpart, wp_bind, wp_read, Post.seq_ret, wp_bind, Statics.scratch, hs]
    refine wp_mono env ?_ (wp_readBlock_ends henv hppb hlen hlt s w)
    rintro o s' w' t ⟨rfl, herased, ⟨rfl, hnot⟩ | ⟨r, buffer', rfl, hlen', hstops⟩⟩
    · exact ⟨.refl _, .inl herased, .inl ⟨rfl, fun h => hnot h.fits⟩⟩
    · have hkept : Kept s' { s' with bbuffer := s'.bbuffer.map fun _ => buffer' } := by
        refine ⟨rfl, rfl, ?_⟩
        rw [hs]
        exact congrArg some hlen'
      rw [Post.seq_ret, wp_bind, wp_modify, Post.seq_ret, wp_pure,
        Post.after_apply, Post.after_apply, Post.after_apply, Post.seq_ret]
      simp only [List.nil_append, List.append_nil]
      by_cases hr : r = 0
      · rw [if_neg (not_not.mpr hr)]
        exact hrest _ buffer' w' t hkept (by rw [hs]; rfl) hlen' (hstops.clean hr) herased
      · rw [if_pos hr, wp_pure]
        exact ⟨hkept, .inl (by simpa using herased),
          .inr ⟨r, rfl, by simpa using hstops, fun h => absurd h hr⟩⟩
  · rw [if_neg hpart, wp_pure, Post.seq_ret, if_neg (by simp)]
    exact hrest s scratch w [] (.refl s) hs rfl .nil rfl

end Parts

/-! ### Ranges in reach -/

section Runs

variable (mcDataChecksum : Bytes → Vector UInt8 3) {σ : Type} {env : Env McCall McResp σ} {port : ℤ}
  {offset count ppb : ℕ} {s : Statics} {w : σ} {d : HandleIdx}

/-- The blocks from `first` on, `n` of them. -/
def blocksFrom (port : ℤ) (first n : ℕ) : List (ℤ × ℤ) :=
  (List.range' first n).map fun i : ℕ => (port, (i : ℤ))

theorem blocksFrom_succ {first b : ℕ} (h : first ≤ b) :
    blocksFrom port first (b - first) ++ [(port, (b : ℤ))] = blocksFrom port first
    (b + 1 - first) := by
  have hlen : b + 1 - first = b - first + 1 := by omega
  have hlast : first + (b - first) = b := by omega
  rw [hlen, blocksFrom, blocksFrom, List.range'_1_concat, List.map_append, hlast]
  rfl

/-- A run that erases some of the blocks of the range, in order. -/
theorem footprint_of_blocks (hppb : 0 < ppb) (hcount : 0 < count) {n : ℕ}
    (hn : offset / ppb + n ≤ (offset + count - 1) / ppb + 1) {o : Outcome ℤ}
    {t : List (Event McCall McResp)} (herased : erasures t = blocksFrom port (offset / ppb) n)
    (hstops : ∃ r, o = .ret r ∧ Stops status r t) : Footprint port ppb offset count o t where
  within := by
    intro e he
    rw [herased, blocksFrom, List.mem_map] at he
    obtain ⟨i, hi, rfl⟩ := he
    rw [List.mem_range'_1] at hi
    obtain ⟨hlo, hhi⟩ := block_start hppb hcount hi.1 (by omega)
    refine ⟨rfl, max offset (i * ppb), by omega, by omega, ?_⟩
    have hdiv : max offset (i * ppb) / ppb = i := by
      refine Nat.div_eq_of_lt_le (by omega) ?_
      rw [Nat.succ_mul]
      omega
    rw [hdiv]
  order := by
    rw [herased, blocksFrom, List.pairwise_map]
    have hlt : (List.range' (offset / ppb) n).Pairwise (· < ·) := List.pairwise_lt_range'
    exact hlt.imp fun h => Int.ofNat_lt.mpr h
  stops := hstops
  empty h := absurd h (by omega)

theorem footprint_of_none {o : Outcome ℤ} {t : List (Event McCall McResp)}
    (h : o = .ret 0 ∧ t = []) : Footprint port ppb offset count o t := by
  obtain ⟨rfl, rfl⟩ := h
  exact ⟨by simp, .nil, ⟨0, rfl, Clean.nil.stops⟩, fun _ => ⟨rfl, rfl⟩⟩

/-- A range in reach is written block by block. -/
theorem footprint_of_reach (henv : Answers env (s.handles d).blocksize.toNat)
    (hs : Ready s d) {buf : Object} {count : UInt32} {offset : UInt64} {flags : UInt32}
    (hbuf : buf.bytes.length = count.toNat * (s.handles d).blocksize.toNat)
    (hcount : 0 < count.toNat) (hsmall : count.toNat < 2 ^ 31)
    (hreach : offset.toNat + count.toNat ≤ 2 ^ 31)
    (hlast : (offset.toNat + count.toNat - 1) / s.pagesPerBlock.toNat + 1 < 2 ^ 31)
    (hsum : Checkable s.pagesPerBlock.toNat (s.handles d).blocksize.toNat s.scratch.length) :
    wp env (mcmanPwrite mcDataChecksum d buf.bytes count offset flags) (fun o _ _ t =>
      Footprint (s.handles d).device s.pagesPerBlock.toNat offset.toNat count.toNat o t) s w := by
  have hpos := hs.pos
  have hle : offset.toNat / s.pagesPerBlock.toNat ≤ (offset.toNat + count.toNat - 1) /
      s.pagesPerBlock.toNat :=
    Nat.div_le_div_right (by omega)
  rw [mcmanPwrite_eq mcDataChecksum count offset flags _ hs, Nat.mod_eq_of_lt (by omega),
    asInt_eq (by omega),
    asInt_eq (by omega), lastBlock_eq hcount (by omega) (by omega)]
  refine wp_pwriteLoop mcDataChecksum hpos hcount (by omega) (by omega) hbuf buf.length_lt
    (fun b s' _ t => Kept s s' ∧ Clean status t ∧ erasures t = blocksFrom (s.handles d).device
      (offset.toNat / s.pagesPerBlock.toNat) (b - offset.toNat / s.pagesPerBlock.toNat)) ?_ ?_ ?_ ?_
  · rintro b s' w' t ⟨hkept, -⟩
    rw [hkept.pagesPerBlock]
  · rintro b s' w' t hlo hhi ⟨hkept, hclean, herased⟩
    obtain ⟨hb, hb'⟩ := block_start hpos hcount hlo hhi
    obtain ⟨hr, hr'⟩ := reached_block hpos hcount hlo hhi
    obtain ⟨scratch, hscratch, hlen⟩ := hkept.scratch hs
    have hsame := hkept.length_scratch
    rw [Statics.scratch, hscratch, Option.getD_some] at hsame
    rw [← hsame] at hsum
    have hfits := hs.block_fits (b := b) (by omega)
    have hrest := length_left hpos hcount hlo hhi hbuf
    refine wp_mono env ?_ (wp_injectPages_ends mcDataChecksum henv hpos hscratch hlen hs.block_lt
      (by omega) hrest w')
    rintro o s'' w'' t' ⟨hkept', hone, ⟨-, hnot⟩ | ⟨r, rfl, hstops, hdone⟩⟩
    · exact absurd ⟨blockFits_natCast hfits, hsum⟩ hnot
    · unfold blockPost
      dsimp only
      by_cases hr0 : r = 0
      · rw [if_neg (not_not.mpr hr0), if_pos (by omega)]
        refine ⟨hkept.trans hkept', hclean.append (hstops.clean hr0), ?_⟩
        rw [erasures_append, herased, (hdone hr0).2, blocksFrom_succ hlo]
      · rw [if_pos hr0]
        have hends := hclean.stops_append hstops
        rcases hone with hnone | hone
        · refine footprint_of_blocks hpos hcount (n := b - offset.toNat / s.pagesPerBlock.toNat)
            (by omega) ?_ ⟨r, rfl, hends⟩
          rw [erasures_append, herased, hnone, List.append_nil]
        · refine footprint_of_blocks hpos hcount (n := b + 1 - offset.toNat / s.pagesPerBlock.toNat)
            (by omega) ?_ ⟨r, rfl, hends⟩
          rw [erasures_append, herased, hone, blocksFrom_succ hlo]
  · rintro s' w' t ⟨-, hclean, herased⟩
    exact footprint_of_blocks hpos hcount (by omega) herased ⟨0, rfl, hclean.stops⟩
  · exact ⟨.refl s, .nil, by rw [Nat.sub_self]; rfl⟩

/-! ### Ranges with no block -/

theorem asInt_emod {n : ℕ} (h : n < 2 ^ 32) : (asInt n % 2 ^ 32).toNat = n := by
  have hdef := Int.bmod_def (n : ℤ) (2 ^ 32)
  unfold asInt
  rw [hdef]
  split
  all_goals omega

/-- The loop is not entered if the last block is before the first. -/
theorem pwriteBlock_none {h : Handle} {buf : Bytes} {endBlock : ℕ} {x : PwriteVars}
    (hx : endBlock < (x.i % 2 ^ 32).toNat) :
    pwriteBlock mcDataChecksum h buf endBlock x = pure (.done x.result) := by
  rw [pwriteBlock, if_neg (Nat.not_le.mpr hx)]

/-- A range with no block: nothing is done. -/
theorem mcmanPwrite_none (hs : Ready s d) {buf : Bytes} {count : UInt32}
    {offset : UInt64} {flags : UInt32}
    (hlast : lastBlock offset.toNat count.toNat s.pagesPerBlock.toNat <
      offset.toNat / s.pagesPerBlock.toNat % 2 ^ 32) :
    wp env (mcmanPwrite mcDataChecksum d buf count offset flags)
    (fun o _ _ t => o = .ret 0 ∧ t = []) s w := by
  have hx : lastBlock offset.toNat count.toNat s.pagesPerBlock.toNat <
      (asInt (offset.toNat / s.pagesPerBlock.toNat % 2 ^ 32) % 2 ^ 32).toNat := by
    rw [asInt_emod (Nat.mod_lt _ (by omega))]
    exact hlast
  obtain ⟨n, hn⟩ := pwriteFuel_pos
  rw [mcmanPwrite_eq mcDataChecksum count offset flags _ hs, hn, wp_loop_succ,
    pwriteBlock_none mcDataChecksum hx, wp_pure]
  exact ⟨rfl, rfl⟩

/-! ### A card that answers everything -/

/-- A card library for which no call fails, and no page holds anything. -/
def agreeable : Env McCall McResp Unit
  | _, .detectCard .. | _, .eraseBlock .. | _, .writePage .. => (0, ())
  | _, .getCardSpec .. => (⟨0, 0, 0, 0, 0⟩, ())
  | _, .allocSysMemory _ => (none, ())
  | _, .readPage .. => (⟨0, []⟩, ())

theorem agreeable_answers (n : ℕ) : Answers agreeable n := fun _ _ _ _ => Nat.zero_le n

theorem agreeable_clean (p : Mc ℤ) : wp agreeable p (fun _ _ _ t => Clean status t) s () := by
  refine clean_run (fun w e => ?_) p s ()
  cases e
  all_goals rfl

/-- A block that is written to such a card is erased, or it cannot be written. -/
theorem BlockEnds.agreeable {block : ℤ} {ppb pageLen size : ℕ} {o : Outcome ℤ}
    {t : List (Event McCall McResp)} (h : BlockEnds port block ppb pageLen size o t)
    (hclean : Clean status t) : o = .halt .undefined ∨
      o = .ret 0 ∧ Writable block ppb pageLen size ∧ erasures t = [(port, block)] := by
  obtain ⟨-, ⟨hundef, -⟩ | ⟨r, rfl, hstops, hdone⟩⟩ := h
  · exact .inl hundef
  · obtain rfl := hstops.eq_zero hclean
    exact .inr ⟨rfl, hdone rfl⟩

/-- The first block of a range is erased, even if the range is empty. -/
theorem mcmanPwrite_first (hs : Ready s d) {buf : Object} {count : UInt32}
    {offset : UInt64} {flags : UInt32}
    (hbuf : buf.bytes.length = count.toNat * (s.handles d).blocksize.toNat)
    (hsmall : count.toNat < 2 ^ 31) (hlast : offset.toNat / s.pagesPerBlock.toNat % 2 ^ 32 ≤
      lastBlock offset.toNat count.toNat s.pagesPerBlock.toNat) :
    wp agreeable (mcmanPwrite mcDataChecksum d buf.bytes count offset flags)
    (fun o _ _ t => o = .halt .undefined ∨
      ((s.handles d).device, asInt (offset.toNat / s.pagesPerBlock.toNat % 2 ^ 32)) ∈ erasures t)
      s () := by
  have hpos := hs.pos
  have hmod := Nat.mod_lt offset.toNat hpos
  obtain ⟨scratch, hscratch, hlen⟩ := hs.scratch
  obtain ⟨n, hn⟩ := pwriteFuel_pos
  have htest := asInt_emod (Nat.mod_lt (offset.toNat / s.pagesPerBlock.toNat) (Nat.two_pow_pos 32))
  -- the pages that are injected into the first block
  have hpages :
      (if (s.pagesPerBlock.toNat : ℤ) - (offset.toNat % s.pagesPerBlock.toNat : ℕ) ≤
      count.toNat then
        (s.pagesPerBlock.toNat : ℤ) - (offset.toNat % s.pagesPerBlock.toNat : ℕ) else count.toNat) =
      (min (s.pagesPerBlock.toNat - offset.toNat % s.pagesPerBlock.toNat) count.toNat : ℕ) := by
    split_ifs
    all_goals omega
  have hbuf' : min (s.pagesPerBlock.toNat - offset.toNat % s.pagesPerBlock.toNat) count.toNat *
      (s.handles d).blocksize.toNat ≤ buf.bytes.length := by
    rw [hbuf]
    exact Nat.mul_le_mul_right _ (Nat.min_le_right _ _)
  rw [mcmanPwrite_eq mcDataChecksum count offset flags _ hs, asInt_eq hsmall, hn,
    wp_loop_succ, pwriteBlock]
  dsimp only
  rw [htest, if_pos hlast, wp_bind, wp_read, Post.seq_ret, hpages, Int.zero_mul,
    checked_eq (by omega) (by omega), pure_bind, if_pos ⟨Int.le_refl 0, by omega⟩, Int.toNat_zero,
    List.drop_zero, Post.after_nil, wp_bind]
  refine wp_mono agreeable ?_
    (wp_and (wp_injectPages_ends mcDataChecksum (agreeable_answers _) hpos hscratch hlen
    hs.block_lt (by omega) hbuf' ()) (agreeable_clean _))
  rintro o s' w' t ⟨⟨-, hends⟩, hclean⟩
  rcases hends.agreeable hclean with rfl | ⟨rfl, -, herased⟩
  · exact .inl rfl
  · have hmem : ((s.handles d).device, asInt (offset.toNat / s.pagesPerBlock.toNat % 2 ^ 32)) ∈
        erasures t := by
      rw [herased]
      exact List.mem_singleton.mpr rfl
    have hmore :
        ∀ t', ((s.handles d).device, asInt (offset.toNat / s.pagesPerBlock.toNat % 2 ^ 32)) ∈
        erasures (t ++ t') := fun t' => by
      rw [erasures_append]
      exact List.mem_append_left _ hmem
    rw [Post.seq_ret]
    refine wp_of_forall agreeable fun o' s'' w'' t' => ?_
    rcases o' with (x' | r) | e
    · rw [Post.after_apply, Post.round_next, List.nil_append]
      refine wp_of_forall agreeable fun o'' s₃ w₃ t'' => Or.inr ?_
      rw [List.append_assoc]
      exact hmore _
    · exact .inr (hmore t')
    · exact .inr (hmore t')

/-- A range out of reach ends as undefined: the number of a page, or of the block after the last, is
no `int`, or a checksum is of bytes that the scratch buffer does not have. -/
theorem mcmanPwrite_overruns (hs : Ready s d) {buf : Object} {count : UInt32}
    {offset : UInt64} {flags : UInt32}
    (hbuf : buf.bytes.length = count.toNat * (s.handles d).blocksize.toNat)
    (hsmall : count.toNat < 2 ^ 31) (hcount : 0 < count.toNat)
    (hfirst : offset.toNat / s.pagesPerBlock.toNat < 2 ^ 31)
    (hover : ¬ (offset.toNat + count.toNat ≤ 2 ^ 31 ∧
      (offset.toNat + count.toNat - 1) / s.pagesPerBlock.toNat + 1 < 2 ^ 31 ∧
      Checkable s.pagesPerBlock.toNat (s.handles d).blocksize.toNat s.scratch.length)) :
    wp agreeable (mcmanPwrite mcDataChecksum d buf.bytes count offset flags)
    (fun o _ _ _ => o = .halt .undefined)
      s () := by
  have hpos := hs.pos
  have hppb := s.pagesPerBlock.toNat_lt
  have hoffset := (Nat.div_lt_iff_lt_mul hpos).mp hfirst
  have hlast : (offset.toNat + count.toNat - 1) / s.pagesPerBlock.toNat < 2 ^ 32 :=
    (Nat.div_lt_iff_lt_mul hpos).mpr (by omega)
  rw [mcmanPwrite_eq mcDataChecksum count offset flags _ hs, Nat.mod_eq_of_lt (by omega),
    asInt_eq hfirst, asInt_eq hsmall, lastBlock_eq hcount (by omega) hlast]
  refine wp_pwriteLoop mcDataChecksum hpos hcount hfirst hlast hbuf buf.length_lt
    (fun b s' _ _ => Kept s s' ∧ (offset.toNat / s.pagesPerBlock.toNat < b →
      b * s.pagesPerBlock.toNat ≤ 2 ^ 31 ∧ b < 2 ^ 31 ∧
        Checkable s.pagesPerBlock.toNat (s.handles d).blocksize.toNat s.scratch.length)) ?_ ?_ ?_ ?_
  · rintro b s' w' t ⟨hkept, -⟩
    rw [hkept.pagesPerBlock]
  · rintro b s' w' t hlo hhi ⟨hkept, -⟩
    obtain ⟨hb, hb'⟩ := block_start hpos hcount hlo hhi
    obtain ⟨hr, hr'⟩ := reached_block hpos hcount hlo hhi
    obtain ⟨scratch, hscratch, hlen⟩ := hkept.scratch hs
    have hsame := hkept.length_scratch
    rw [Statics.scratch, hscratch, Option.getD_some] at hsame
    have hrest := length_left hpos hcount hlo hhi hbuf
    refine wp_mono agreeable ?_
      (wp_and (wp_injectPages_ends mcDataChecksum (agreeable_answers _) hpos hscratch hlen
      hs.block_lt (by omega) hrest w') (agreeable_clean _))
    rintro o s'' w'' t' ⟨⟨hkept', hends⟩, hclean⟩
    rcases hends.agreeable hclean with rfl | ⟨rfl, ⟨⟨-, hfits⟩, hsum⟩, -⟩
    · rfl
    · unfold blockPost
      dsimp only
      rw [if_neg (by simp)]
      split_ifs with hnext
      · refine ⟨hkept.trans hkept', fun _ => ⟨?_, hnext, hsame ▸ hsum⟩⟩
        rw [Nat.succ_mul]
        exact_mod_cast hfits
      · rfl
  · rintro s' w' t ⟨-, hdone⟩
    have hle : offset.toNat / s.pagesPerBlock.toNat ≤ (offset.toNat + count.toNat - 1) /
        s.pagesPerBlock.toNat :=
      Nat.div_le_div_right (by omega)
    obtain ⟨hend, hlt, hsum⟩ := hdone (by omega)
    have hup := (Nat.div_lt_iff_lt_mul hpos).mp
      (Nat.lt_succ_self ((offset.toNat + count.toNat - 1) / s.pagesPerBlock.toNat))
    rw [Nat.succ_eq_add_one] at hup
    exact absurd ⟨by omega, hlt, hsum⟩ hover
  · exact ⟨.refl s, fun h => absurd h (Nat.lt_irrefl _)⟩

/-! ### When nothing is erased for nothing -/

theorem asInt_lt (n : ℕ) : asInt n < 2 ^ 31 := by
  unfold asInt
  exact Int.bmod_lt (by omega)

/-- The last block of an empty range is before its first, if the range starts at the start of a
block that has one before it. -/
theorem lastBlock_empty_iff {offset ppb : ℕ} (hppb : 0 < ppb) (hlt : offset < 2 ^ 64) :
    lastBlock offset 0 ppb < offset / ppb % 2 ^ 32 ↔ ppb ∣ offset ∧ offset / ppb % 2 ^ 32 ≠ 0 := by
  rcases Nat.eq_zero_or_pos offset with rfl | hpos
  · simp
  · have hmod : (offset + 0 + (2 ^ 64 - 1)) % 2 ^ 64 = offset - 1 := by omega
    rw [lastBlock, hmod]
    by_cases hdvd : ppb ∣ offset
    · obtain ⟨m, rfl⟩ := hdvd
      obtain ⟨k, rfl⟩ : ∃ k, m = k + 1 := Nat.exists_eq_add_one.mpr (Nat.pos_of_mul_pos_left hpos)
      have hbefore : (ppb * (k + 1) - 1) / ppb = k := by
        rw [Nat.mul_comm, Nat.succ_mul]
        refine Nat.div_eq_of_lt_le (by omega) ?_
        rw [Nat.succ_mul]
        omega
      rw [Nat.mul_div_cancel_left _ hppb, hbefore]
      exact ⟨fun h => ⟨Nat.dvd_mul_right _ _, by omega⟩, fun h => by have := h.2; omega⟩
    · have hsame : (offset - 1) / ppb = offset / ppb := by
        have h := Nat.div_add_mod offset ppb
        have h' := Nat.mod_lt offset hppb
        have h'' : offset % ppb ≠ 0 := fun h => hdvd (Nat.dvd_of_mod_eq_zero h)
        rw [Nat.mul_comm] at h
        refine Nat.div_eq_of_lt_le (by omega) ?_
        rw [Nat.succ_mul]
        omega
      rw [hsame]
      exact ⟨fun h => absurd h (Nat.lt_irrefl _), fun h => absurd h.1 hdvd⟩

theorem lastBlock_pos {offset count ppb : ℕ} (hcount : 0 < count) :
    lastBlock offset count ppb = (offset + count - 1) % 2 ^ 64 / ppb % 2 ^ 32 := by
  have hmod : (offset + count + (2 ^ 64 - 1)) % 2 ^ 64 = (offset + count - 1) % 2 ^ 64 := by omega
  rw [lastBlock, hmod]

/-- **A write spares the card** exactly when its range is as `Spared` says: whatever the card
library answers, it erases no block but those of its range, each once and in order, stops at the
first call that fails, and does nothing if the range is empty. -/
theorem footprint_iff (hs : Ready s d) (hblock : 0 < (s.handles d).blocksize.toNat)
    (buf : Object) (count : UInt32) (offset : UInt64) (flags : UInt32)
    (hbuf : buf.bytes.length = count.toNat * (s.handles d).blocksize.toNat) :
    (∀ (σ : Type) (env : Env McCall McResp σ) (w : σ), Answers env (s.handles d).blocksize.toNat →
      Footprint (s.handles d).device s.pagesPerBlock.toNat offset.toNat count.toNat
        ((mcmanPwrite mcDataChecksum d buf.bytes count offset flags).run env s w).out
        ((mcmanPwrite mcDataChecksum d buf.bytes count offset flags).run env s w).trace) ↔
      Spared s.pagesPerBlock.toNat (s.handles d).blocksize.toNat s.scratch.length
      offset.toNat count.toNat := by
  have hpos := hs.pos
  have hsmall : count.toNat < 2 ^ 31 := by
    have hle := Nat.le_mul_of_pos_right count.toNat hblock
    have hlt := buf.length_lt
    omega
  unfold Spared
  constructor
  · intro hall
    have hrun := hall Unit agreeable () (agreeable_answers _)
    revert hrun
    generalize hx : (mcmanPwrite mcDataChecksum d buf.bytes count offset flags).run agreeable s () =
      x
    intro hrun
    have hfirst : offset.toNat / s.pagesPerBlock.toNat % 2 ^ 32 ≤
        lastBlock offset.toNat count.toNat s.pagesPerBlock.toNat → x.out = .halt .undefined ∨
        ((s.handles d).device, asInt (offset.toNat / s.pagesPerBlock.toNat % 2 ^ 32)) ∈
          erasures x.trace := by
      intro hlast
      rw [← hx]
      exact mcmanPwrite_first mcDataChecksum hs hbuf hsmall hlast
    obtain ⟨r, hret, -⟩ := hrun.stops
    have hundef : x.out ≠ .halt .undefined := by
      rw [hret]
      exact fun h => by cases h
    split_ifs with hcount
    · by_contra hnot
      rw [← lastBlock_empty_iff hpos offset.toNat_lt, Nat.not_lt, ← hcount] at hnot
      have hmem := (hfirst hnot).resolve_left hundef
      rw [(hrun.empty hcount).2] at hmem
      cases hmem
    · refine or_iff_not_imp_left.mpr fun hover => ?_
      by_contra hlast
      rw [← lastBlock_pos (by omega), Nat.not_lt] at hlast
      by_cases hreach : offset.toNat / s.pagesPerBlock.toNat < 2 ^ 31
      · refine hundef ?_
        rw [← hx]
        exact mcmanPwrite_overruns mcDataChecksum hs hbuf hsmall (by omega) hreach hover
      · obtain ⟨-, p, hp, -, hblock'⟩ := hrun.within _ ((hfirst hlast).resolve_left hundef)
        have hle : offset.toNat / s.pagesPerBlock.toNat ≤ p / s.pagesPerBlock.toNat :=
          Nat.div_le_div_right hp
        have hint := asInt_lt (offset.toNat / s.pagesPerBlock.toNat % 2 ^ 32)
        dsimp only at hblock'
        rw [hblock'] at hint
        exact hreach (Nat.lt_of_le_of_lt hle (by exact_mod_cast hint))
  · intro hspared σ env w henv
    split_ifs at hspared with hcount
    · rw [← lastBlock_empty_iff hpos offset.toNat_lt, ← hcount] at hspared
      exact footprint_of_none (mcmanPwrite_none mcDataChecksum hs hspared)
    · rcases hspared with ⟨hreach, hlast, hsum⟩ | hlast
      · exact footprint_of_reach mcDataChecksum henv hs hbuf (by omega) hsmall hreach hlast hsum
      · rw [← lastBlock_pos (by omega)] at hlast
        exact footprint_of_none (mcmanPwrite_none mcDataChecksum hs hlast)

end Runs

/-- An empty range that starts with the second block, and one of twenty pages. -/
theorem footprint_iff_empty :
    Footprint 0 16 16 0 ((mcmanPwrite Sample.checksum 0 [] 0 16 0).run agreeable
      Sample.mounted ()).out ((mcmanPwrite Sample.checksum 0 [] 0 16 0).run agreeable
      Sample.mounted ()).trace ∧
    Footprint 0 16 10 20
      ((mcmanPwrite Sample.checksum 0 (List.replicate 10240 7) 20 10 0).run agreeable
      Sample.mounted ()).out ((mcmanPwrite Sample.checksum 0 (List.replicate 10240 7) 20 10 0).run
      agreeable Sample.mounted ()).trace := by
  have hempty : Spared 16 512 Sample.mounted.scratch.length 16 0 := by
    rw [Spared, if_pos rfl]
    decide
  have hlen : Sample.mounted.scratch.length = 8192 := List.length_replicate
  have htwenty : Spared 16 512 Sample.mounted.scratch.length 10 20 := by
    rw [Spared, if_neg (by decide), Checkable, hlen]
    exact .inl (by decide)
  have hbuf : (List.replicate 10240 (7 : UInt8)).length < 2 ^ 31 := by
    rw [List.length_replicate]
    omega
  constructor
  · exact (footprint_iff Sample.checksum Sample.mounted_ready (by decide) ⟨[], by decide⟩ 0
      16 0 rfl).mpr hempty Unit agreeable () (agreeable_answers _)
  · exact (footprint_iff Sample.checksum Sample.mounted_ready (by decide)
      ⟨List.replicate 10240 7, hbuf⟩ 20 10 0 List.length_replicate).mpr htwenty Unit agreeable ()
      (agreeable_answers _)

/-- A handle of a card with pages of 512 bytes, two of them in a block. -/
def Sample.mountedSmall : Statics := ⟨fun _ => ⟨0, 8388608, 512⟩, some (List.replicate 1024 0), 2⟩

/-- **An empty write erases a block**, if it starts within one. -/
theorem mcmanPwrite_empty_erases :
    erasures ((mcmanPwrite Sample.checksum 0 [] 0 1 0).run agreeable Sample.mountedSmall ()).trace =
    [(0, 0)] ∧
      ¬ Footprint 0 2 1 0 ((mcmanPwrite Sample.checksum 0 [] 0 1 0).run agreeable
      Sample.mountedSmall ()).out
        ((mcmanPwrite Sample.checksum 0 [] 0 1 0).run agreeable Sample.mountedSmall ()).trace := by
  have herased :
      erasures ((mcmanPwrite Sample.checksum 0 [] 0 1 0).run agreeable Sample.mountedSmall
      ()).trace = [(0, 0)] := by
    decide +kernel
  refine ⟨herased, fun h => ?_⟩
  rw [(h.empty rfl).2] at herased
  cases herased

end LwNBD.Mcman
