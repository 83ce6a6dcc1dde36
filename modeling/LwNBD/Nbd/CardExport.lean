import LwNBD.Nbd.Paged
import LwNBD.Nbd.Served
import LwNBD.Plugins.Contents
import LwNBD.Plugins.Geometry

/-!
# A memory card that is served

The whole of a server that serves a memory card: a session over a socket, and `mcman` over the card
library. A client writes the bytes of some pages; for each block that they are in the plugin reads
what else is in the block, erases it, and writes it. None of this is to be seen by the client, for
which the card is a disk.

## The model

* `mcmanFlush`, `mcmanGetSize`, `mcmanBlockSize` — the other callbacks.
* `Card`, `Card.Mounted` — a card whose pages are blocks of the export, and the static variables as
  the constructor leaves them.
* `cardHost` — the host of a session whose callbacks are those of the plugin; `Card.toExport` — the
  export. A write of no pages is left out of it, for it may erase blocks.

## What is proved

* `wp_mcmanPread_whole`, `wp_mcmanPwrite_whole` — pages that are on the card are read and written.
* `wp_mcmanCtor_mounted` — the constructor does as expected.
* `cardHost_isPaged` — the plugin reads and writes pages, so it is a block device.
* `card_export_served` — over a socket, a session serves the card as an ideal disk.
-/

namespace LwNBD.Mcman

open Resumption

/-! ### The other callbacks -/

/-- `mcman_flush`. -/
def mcmanFlush (_flags : UInt32) : Mc ℤ := pure 0

/-- `mcman_get_size`. -/
def mcmanGetSize (d : HandleIdx) : Mc Int64 := do pure ((← Prog.read).handles d).size

/-- `mcman_block_size`. -/
def mcmanBlockSize : UInt32 × UInt32 × UInt32 := (512, 512, 512)

/-! ### A card -/

variable {σ : Type}

/-- A card with a library that works, in a port. -/
structure Card (σ : Type) where
  /-- What the library answers. -/
  env : Env McCall McResp σ
  /-- The pages. -/
  page : σ → ℕ → Bytes
  /-- The port. -/
  port : ℤ
  /-- The number of pages. -/
  pages : ℕ
  /-- The number of pages in a block. -/
  ppb : ℕ
  /-- The number of bytes in a page. -/
  pageLen : ℕ
  /-- The library works on a flash array. -/
  flash : IsFlash env page port pages ppb pageLen
  /-- The places of its bytes are `int`s. -/
  small : pages * pageLen < 2 ^ 31

/-- The bytes of the card. -/
def Card.bytes (c : Card σ) (w : σ) : Bytes := pagesOf (c.page w) c.pages

@[simp] theorem Card.length_bytes (c : Card σ) (w : σ) : (c.bytes w).length = c.pages * c.pageLen :=
  length_pagesOf (c.flash.length w) c.pages

/-- The static variables are those of the card, for the handle that is exported. -/
structure Card.Mounted (c : Card σ) (d : HandleIdx) (s : Statics) : Prop where
  /-- They are in order. -/
  ready : Ready s d
  /-- The port. -/
  device : (s.handles d).device = c.port
  /-- The number of bytes in a page. -/
  blocksize : (s.handles d).blocksize.toNat = c.pageLen
  /-- The number of pages in a block. -/
  pagesPerBlock : s.pagesPerBlock.toNat = c.ppb

theorem Card.Mounted.kept {c : Card σ} {d : HandleIdx} {s s' : Statics}
    (h : c.Mounted d s) (hs : Kept s s') : c.Mounted d s' where
  ready := hs.ready h.ready
  device := by rw [hs.handles, h.device]
  blocksize := by rw [hs.handles, h.blocksize]
  pagesPerBlock := by rw [hs.pagesPerBlock, h.pagesPerBlock]

section Transfers

variable {c : Card σ} {d : HandleIdx} {s : Statics} {buf : Bytes} {count : UInt32} {offset : UInt64}

theorem pagesRead_one (port slot page : ℤ) (r : PageRead) :
    pagesRead [⟨.readPage port slot page, r⟩] = r.data := by
  rw [pagesRead, List.flatMap_singleton]

/-- `mcman_pread` reads the pages if they are on the card. -/
theorem wp_mcmanPread_whole (hm : c.Mounted d s) (hle : offset.toNat + count.toNat ≤ c.pages)
    (hbuf : count.toNat * c.pageLen ≤ buf.length) (flags : UInt32) (w : σ) :
    wp c.env (mcmanPread d buf count offset flags)
      (fun o _ w' t => (∃ buf', o = .ret (0, buf')) ∧ c.page w' = c.page w ∧
        pagesRead t = (stretch (c.page w) offset.toNat count.toNat).flatten) s w := by
  have hsmall : count.toNat * c.pageLen < 2 ^ 31 :=
    Nat.lt_of_le_of_lt (Nat.mul_le_mul_right _ (by omega)) c.small
  have hpages := c.flash.size
  unfold mcmanPread
  rw [wp_bind, wp_read, Post.seq_ret, Post.after_nil, wp_bind]
  refine wp_mono c.env ?_ (wp_count c.env (Q := fun _ _ _ _ => False)
    (fun j b _ w' t => b.length = buf.length ∧ c.page w' = c.page w ∧
      pagesRead t = (stretch (c.page w) offset.toNat j).flatten)
    ?_ count.toNat 0 (Nat.zero_add _) (h := []) ⟨rfl, rfl, rfl⟩)
  · rintro ((b | r) | e) s' w' t hQ
    · obtain ⟨-, hpage, hread⟩ := hQ
      rw [Post.seq_ret, wp_pure, Post.after_apply, List.append_nil]
      exact ⟨⟨b, rfl⟩, hpage, hread⟩
    · exact hQ.elim
    · exact hQ.elim
  · rintro j b s' w' t hj ⟨hlen, hpage, hread⟩
    have hplace := page_le hj hbuf
    have hplace' := page_le hj (Nat.le_refl (count.toNat * c.pageLen))
    have hnumber : (offset + (j : ℕ).toUInt64).toNat = offset.toNat + j := by
      rw [UInt64.toNat_add, Nat.toUInt64, UInt64.toNat_ofNat']
      omega
    have hin : (offset.toNat + j) / c.ppb * c.ppb < c.pages :=
      Nat.lt_of_le_of_lt (Nat.div_mul_le_self _ _) (by omega)
    obtain ⟨hr, hkeep⟩ := c.flash.read w' (offset.toNat + j) hin
    have hdata : (c.page w' (offset.toNat + j)).length = c.pageLen := c.flash.length _ _
    unfold preadPage
    rw [hm.blocksize, hm.device, checked_place (by omega), pure_bind, wp_bind, wp_perform,
      Post.seq_ret, hnumber, asInt_eq (by omega), hr]
    dsimp only
    rw [Int.toNat_natCast, if_pos (by omega), if_neg (by simp), checked_eq (by omega) (by omega),
      pure_bind, wp_pure]
    refine ⟨?_, hkeep.trans hpage, ?_⟩
    · rw [List.length_overwrite (by omega), hlen]
    · have hlast : stretch (c.page w) (offset.toNat + j) 1 = [c.page w (offset.toNat + j)] := by
        simp [stretch]
      rw [List.append_nil, pagesRead_append, hread, pagesRead_one, stretch_add,
        List.flatten_append, hlast, List.flatten_singleton, hpage]

/-- `mcman_pwrite` writes the pages if they are on the card, and there are some. -/
theorem wp_mcmanPwrite_whole (mcDataChecksum : Bytes → Vector UInt8 3) (hm : c.Mounted d s)
    (hpage : 512 ≤ c.pageLen) (hpos : count ≠ 0) (hle : offset.toNat + count.toNat ≤ c.pages)
    (hbuf : buf.length = count.toNat * c.pageLen) (flags : UInt32) (w : σ) :
    wp c.env (mcmanPwrite mcDataChecksum d buf count offset flags) (fun o _ w' _ => o = .ret 0 ∧
      c.page w' = overlay (c.page w) offset.toNat count.toNat (buf.page c.pageLen)) s w := by
  have hsmall : count.toNat * c.pageLen < 2 ^ 31 :=
    Nat.lt_of_le_of_lt (Nat.mul_le_mul_right _ (by omega)) c.small
  have hpages := c.flash.size
  have hflash := c.flash
  have hcount : 1 ≤ count.toNat := Nat.pos_of_ne_zero fun h0 => hpos (UInt32.toNat_inj.mp h0)
  have hready := hm.ready
  have hppb := hready.pos
  have hlow : offset.toNat / s.pagesPerBlock.toNat ≤ offset.toNat := Nat.div_le_self _ _
  have hhigh : (offset.toNat + count.toNat - 1) / s.pagesPerBlock.toNat ≤
      offset.toNat + count.toNat - 1 :=
    Nat.div_le_self _ _
  have hsize : buf.length = count.toNat * (s.handles d).blocksize.toNat := by
    rw [hm.blocksize, hbuf]
  rw [← hm.device, ← hm.pagesPerBlock, ← hm.blocksize] at hflash
  rw [mcmanPwrite_eq mcDataChecksum count offset flags _ hready, Nat.mod_eq_of_lt (by omega),
    asInt_eq (by omega),
    asInt_eq (by omega), lastBlock_eq hcount (by omega) (by omega)]
  -- when it is a block's turn, the pages before those it has are on the card
  refine wp_pwriteLoop mcDataChecksum hppb hcount (by omega) (by omega) hsize (by omega)
    (fun b s' w' _ => Kept s s' ∧ c.page w' = overlay (c.page w) offset.toNat
      (reached offset.toNat count.toNat s.pagesPerBlock.toNat b - offset.toNat)
      (buf.page c.pageLen))
    (fun b s' w' t h => by rw [h.1.pagesPerBlock]) ?_ ?_ ?_
  · rintro b s' w' t hlo hhi ⟨hkept, hover⟩
    obtain ⟨hb, hb'⟩ := block_start hppb hcount hlo hhi
    obtain ⟨hr, hr'⟩ := reached_block hppb hcount hlo hhi
    obtain ⟨scratch, hscratch, hlen⟩ := hkept.scratch hready
    refine wp_mono c.env ?_ (wp_injectPages mcDataChecksum hflash hppb (by omega)
      (hready.block_fits (by omega)) hscratch
      hlen (checkable_of_le hppb (by rw [hm.blocksize]; exact hpage) hlen)
        hready.block_lt (by omega)
      (length_left hppb hcount hlo hhi hsize) w')
    rintro o s'' w'' t' ⟨rfl, hkept', hcard⟩
    unfold blockPost
    dsimp only
    rw [if_neg (by simp), if_pos (by omega)]
    refine ⟨hkept.trans hkept', hcard.trans ?_⟩
    rw [hover, hm.blocksize]
    have hplace : b * s.pagesPerBlock.toNat +
        (reached offset.toNat count.toNat s.pagesPerBlock.toNat b - b * s.pagesPerBlock.toNat) =
        offset.toNat + (reached offset.toNat count.toNat s.pagesPerBlock.toNat
          b - offset.toNat) := by omega
    have hshift :
        (buf.drop ((reached offset.toNat count.toNat s.pagesPerBlock.toNat b - offset.toNat) *
        c.pageLen)).page c.pageLen = fun i =>
        buf.page c.pageLen (reached offset.toNat count.toNat s.pagesPerBlock.toNat
        b - offset.toNat + i) :=
      funext fun i => List.page_drop _ _ _ i
    rw [hplace, hshift, overlay_overlay]
    congr 1
    omega
  · rintro s' w' t ⟨-, hover⟩
    rw [reached_last hppb hcount, Nat.add_sub_cancel_left] at hover
    exact ⟨rfl, hover⟩
  · refine ⟨.refl s, ?_⟩
    rw [reached_first, Nat.sub_self, overlay_zero]

end Transfers

/-! ### The constructor -/

theorem toNat_toUInt16 {x : Int16} {n : ℕ} (h : x.toInt = n) : x.toUInt16.toNat = n := by
  have hnat : x.toUInt16.toNat = x.toBitVec.toNat := rfl
  have hint : x.toInt = x.toBitVec.toInt := rfl
  have hlt := x.toBitVec.isLt
  rw [hint, BitVec.toInt_eq_toNat_cond] at h
  rw [hnat]
  split_ifs at h
  all_goals omega

/-- The constructor mounts the card that is in its port, if there is memory for a block. -/
theorem wp_mcmanCtor_mounted {c : Card σ} {d : HandleIdx} {spec : CardSpec} {k : ℕ}
    (hport : c.port = (d : ℕ)) (hspec : ∀ w, (c.env w (.getCardSpec c.port 0)).1 = spec)
    (hpresent : spec.ret = 0) (hlen : spec.pageLen.toInt = c.pageLen)
    (hppb : spec.pagesPerBlock.toNat = c.ppb) (hpower : c.ppb = 2 ^ k)
    (hmemory : ∀ w, (c.env w (.allocSysMemory (c.pageLen * c.ppb))).1.isSome) (ctx : Context)
    (s : Statics) (w : σ) :
    wp c.env (mcmanCtor (UInt8.ofNat d) ctx) (fun o s' _ _ => (∃ ctx', o = .ret (0, ctx')) ∧
      c.Mounted d s') s w := by
  have hdevice : (UInt8.ofNat d).toNat = d := by
    rw [UInt8.toNat_ofNat']
    exact Nat.mod_eq_of_lt (Nat.lt_of_lt_of_le d.isLt (by decide))
  have hidx (h : (UInt8.ofNat d).toNat < MAX_DEVICES) : (⟨(UInt8.ofNat d).toNat, h⟩ : HandleIdx) =
      d := Fin.ext hdevice
  have hplace : ((UInt8.ofNat d).toNat : ℤ) = c.port := by rw [hdevice, hport]
  have hbytes : spec.pageLen.toInt * spec.pagesPerBlock.toNat = c.pageLen * c.ppb := by
    rw [hlen, hppb]
  unfold mcmanCtor
  rw [wp_bind, wp_perform, Post.seq_ret, wp_bind, wp_perform, Post.seq_ret, hplace,
    hspec, wp_bind, wp_modify, Post.seq_ret, if_pos hpresent,
    dif_pos (by rw [hdevice]; exact d.isLt), wp_bind, wp_perform, Post.seq_ret, hbytes, wp_bind,
    wp_modify, Post.seq_ret, wp_pure, hidx]
  obtain ⟨m, hm⟩ := Option.isSome_iff_exists.mp (hmemory _)
  have hhandle : Function.update s.handles d ⟨c.port, spec.cardSize.toInt64 * spec.pageLen.toInt64,
      spec.pageLen.toUInt16⟩ d = _ := Function.update_self _ _ _
  refine ⟨⟨_, rfl⟩, ⟨⟨k, by rw [hppb, hpower]⟩, _, by rw [hm]; rfl, ?_⟩, ?_, ?_, hppb⟩
  · dsimp only
    rw [hhandle, toNat_toUInt16 hlen, hppb, List.length_map, List.length_range]
    exact Nat.le_of_eq (by rw [Nat.mul_comm]; norm_cast)
  · exact congrArg Handle.device hhandle
  · rw [← toNat_toUInt16 hlen]
    exact congrArg (fun h => h.blocksize.toNat) hhandle

/-! ### The host -/

/-- What a callback returned; one that does not return is none that succeeds. -/
def returned : Outcome (ℤ × Bytes) → ℤ
  | .ret r => r.1
  | .halt _ => -1

section Host

variable (mcDataChecksum : Bytes → Vector UInt8 3) (d : HandleIdx)

/-- The callbacks of the plugin, for the handle that is exported. Each is handed as much of
`nbd_buffer` as has the blocks, so that to look at any more of it is `.undefined`. -/
def cardCallback : Call → Mc (ℤ × Bytes)
  | .pread _ _ count offset => mcmanPread d (List.replicate (count.toNat * 512) 0) count offset 0
  | .pwrite _ _ data count
      offset => do pure (← mcmanPwrite mcDataChecksum d (data.take (count.toNat * 512)) count offset
      0, [])
  | .flush .. => do pure (← mcmanFlush 0, [])
  | .getSize .. => do pure ((← mcmanGetSize d).toInt, [])
  | _ => pure (0, [])

/-- What a callback tells the server. What is no callback is answered by `rest`. -/
def cardAnswer (rest : (e : Call) → Resp e) :
    (e : Call) → Result Statics McCall McResp σ (ℤ × Bytes) → Resp e
  | .pread .., x => ⟨returned x.out, pagesRead x.trace⟩
  | .pwrite .., x | .flush .., x => returned x.out
  | .getSize .., x => Int64.ofInt (returned x.out)
  | .blockSize .., _ => mcmanBlockSize
  | e, _ => rest e

/-- The host with the memory card plugin, over a card library. -/
def cardHost (env : Env McCall McResp σ) (rest : (e : Call) → Resp e) :
    Env Call Resp (Statics × σ) :=
  answered env (cardCallback mcDataChecksum d) (cardAnswer rest)

variable {mcDataChecksum d} {c : Card σ} {rest : (e : Call) → Resp e}

theorem cardHost_mounted (x : Statics × σ) (e : Call) (hx : c.Mounted d x.1) :
    c.Mounted d (cardHost mcDataChecksum d c.env rest x e).2.1 := by
  have hkeeps : (cardCallback mcDataChecksum d e).Keeps Kept (fun _ => True) x.1 := by
    cases e with
    | pread p handle count offset => exact mcmanPread_keeps d _ count offset 0
    | pwrite p handle data count offset =>
      exact keeps_bind (mcmanPwrite_keeps mcDataChecksum d _ count offset 0) fun _ _ _ _ =>
        keeps_pure trivial
    | flush p handle => exact keeps_pure trivial
    | getSize p handle => exact Prog.Keeps.read_bind (keeps_pure trivial)
    | _ => exact keeps_pure trivial
  exact hx.kept (hkeeps σ c.env x.2).1

/-- The plugin reads and writes pages while the card is mounted, if a page has 512 bytes, and but
for writes of no pages. -/
theorem cardHost_isPaged (h512 : c.pageLen = 512) (p : Plugin) (handle : LwNBD.Handle) :
    IsPaged ((filled (cardHost mcDataChecksum d c.env rest)).within _
      (filled_keeps cardHost_mounted)) p handle 512 (fun x => c.page x.1.2) c.pages where
  pos := by decide
  length x i := (c.flash.length x.1.2 i).trans h512
  pread := by
    rintro ⟨⟨s, w⟩, hx⟩ count offset hin
    have hbuf : count.toNat * c.pageLen ≤
        (List.replicate (count.toNat * 512) (0 : UInt8)).length := by
      rw [List.length_replicate, h512]
    obtain ⟨⟨buf', hout⟩, hpage, hread⟩ := wp_mcmanPread_whole hx hin hbuf 0 w
    exact ⟨congrArg₂ Pread.mk (congrArg returned hout) hread, hpage⟩
  pwrite := by
    rintro ⟨⟨s, w⟩, hx⟩ data count offset hin hdata
    rw [show (512 : UInt32).toNat = c.pageLen from h512.symm] at hdata ⊢
    by_cases h0 : count = 0
    · subst h0
      exact ⟨rfl, overlay_zero.symm⟩
    have hlen : (data.take (count.toNat * 512)).length = count.toNat * c.pageLen := by
      rw [List.length_take, h512, Nat.min_eq_left (by rw [← h512]; exact hdata)]
    have hwrite : wp c.env (cardCallback mcDataChecksum d (.pwrite p handle data count offset))
        (fun o _ w' _ =>
        o = .ret (0, []) ∧ c.page w' = overlay (c.page w) offset.toNat count.toNat
          ((data.take (count.toNat * 512)).page c.pageLen)) s w := by
      unfold cardCallback
      rw [wp_bind]
      refine wp_mono c.env ?_ (wp_mcmanPwrite_whole mcDataChecksum hx h512.ge h0 hin hlen 0 w)
      rintro o s' w' t ⟨rfl, hpage⟩
      exact ⟨rfl, hpage⟩
    have hhost : filled (cardHost mcDataChecksum d c.env rest) (s, w)
        (.pwrite p handle data count offset) = cardHost mcDataChecksum d c.env rest (s, w)
        (.pwrite p handle data count offset) := filled_of_fills h0
    dsimp only [Env.within]
    rw [hhost]
    refine ⟨congrArg returned hwrite.1, Eq.trans hwrite.2 ?_⟩
    refine overlay_congr (fun _ _ => rfl) fun i hi => ?_
    rw [← h512]
    exact List.page_take hi
  flush := by
    rintro ⟨⟨s, w⟩, hx⟩
    exact ⟨rfl, rfl⟩
  note _ _ := rfl
  uninit _ _ := rfl

end Host

/-! ### The whole server -/

/-- The card, as an export. -/
def Card.toExport (c : Card σ) (h512 : c.pageLen = 512) (mcDataChecksum : Bytes → Vector UInt8 3)
    (d : HandleIdx) (rest : (e : Call) → Resp e) (p : Plugin) (handle : LwNBD.Handle) :
    Export (Statics × σ) where
  host := filled (cardHost mcDataChecksum d c.env rest)
  inv := fun x => c.Mounted d x.1
  keeps := filled_keeps cardHost_mounted
  content := fun x => c.bytes x.2
  plugin := p
  handle := handle
  blocksize := 512
  device := (cardHost_isPaged h512 p handle).isBlockDevice

/-- **A memory card is served over a socket as an ideal disk.** A client that writes no empty ranges
finds on the card what it wrote, and everything else as it was, although whole blocks are erased
under it: the replies are those of a disk with the bytes of the card to the messages that are no
DISC, however the socket cuts them, and the card has the bytes of that disk afterwards. -/
theorem card_export_served (c : Card σ) (h512 : c.pageLen = 512)
    (mcDataChecksum : Bytes → Vector UInt8 3) (d : HandleIdx) (rest : (e : Call) → Resp e)
    (p : Plugin) {W : ℕ} {ν : Type} {net : Env Tcp.TcpCall (Tcp.TcpResp W) ν} {input : ν → Bytes}
    {sock : ℤ} {cfg : Config} {s : Shared} {ms : List Msg} {tfuel : ℕ} {addr : Obj → ℕ}
    (hW : 14 ≤ W) (hc : Tcp.Connected net sock input) (htfuel : 4096 < tfuel)
    (hsock : s.ctx.sock = sock) (y : Stack ν (Statics × σ)) (hin : input y.net = stream ms)
    (hx : DefaultExport cfg s.ctx (c.toExport h512 mcDataChecksum d rest p s.ctx.handle) y.host)
    (hms : ∀ m ∈ ms, m.Legal 512 (c.pages * 512)) (hfilled : ∀ m ∈ ms, m.request.Filled 512) :
    ∃ N, ∀ fuel ≥ N,
      let z := (nbdSynchronousClientThreadCb cfg fuel sock).run
        (sockets net tfuel addr (cardHost mcDataChecksum d c.env rest)) s y
      z.out = .ret (-1) ∧ z.env.output = y.output ++ replies (c.bytes y.host.2) (served ms) ∧
        c.bytes z.env.host.2 = contentAfter (c.bytes y.host.2) (served ms) ∧ input z.env.net = [] ∧
        z.mem = s.told ms := by
  refine ⟨loopFuel cfg + (input y.net).length + 1, fun fuel hfuel => ?_⟩
  have hlen : (c.bytes y.host.2).length = c.pages * 512 := by rw [c.length_bytes, h512]
  rw [← hlen] at hms
  exact (c.toExport h512 mcDataChecksum d rest p s.ctx.handle).served_filled rfl hW hc htfuel
    hsock hx hms hfilled hin (Nat.lt_of_succ_le hfuel)

namespace Sample

/-- A card of 32 pages, in two blocks. -/
def twoBlocks : Card (ℕ → Vector UInt8 512) :=
  ⟨flash 512 16, fun w p => (w p).toList, 0, 32, 16, 512, flash_isFlash (by omega) 0, by decide⟩

/-- The static variables when the constructor has run. -/
def inserted : Statics :=
  ((mcmanCtor 0 .zero).run (flash 512 16) .zero fun _ => .replicate 512 7).mem

theorem inserted_mounted : twoBlocks.Mounted 0 inserted := by
  have hctor := wp_mcmanCtor_mounted (c := twoBlocks) (d := 0) (k := 4) rfl (fun _ => rfl)
    rfl (by decide) rfl rfl (fun _ => rfl) .zero .zero fun _ => .replicate 512 7
  exact hctor.2

/-- A server whose buffer has eight pages. -/
def eightPages : Config := ⟨4096, 5, by decide, by decide⟩

/-- A server whose default export is the card. -/
def server : Shared :=
  ⟨{ LwNBD.Sample.ctx with preinit := 1, minimumBlockSize := 512, exportsize := 16384 }, .empty⟩

/-- A client that writes a page in the middle of a block, leaves, and reads what is about it; the
card was mounted by the constructor. -/
theorem card_export_served_twoBlocks :
    let ms := [LwNBD.Sample.zeroes 1536 512, LwNBD.Sample.parting, LwNBD.Sample.reading 1024 1536]
    let x : Stack Bytes (Statics × (ℕ → Vector UInt8 512)) :=
      ⟨stream ms, fun _ => 0, [], (inserted, fun _ => .replicate 512 7)⟩
    ∃ N, ∀ fuel ≥ N,
      let z := (nbdSynchronousClientThreadCb eightPages fuel 5).run
        (sockets LwNBD.Sample.dribble 4097 (fun _ => 0)
        (cardHost checksum 0 (flash 512 16) LwNBD.Sample.others)) server x
      z.out = .ret (-1) ∧ z.env.output = [] ++ replies (twoBlocks.bytes fun _ => .replicate 512 7)
        (served ms) ∧ twoBlocks.bytes z.env.host.2 =
        contentAfter (twoBlocks.bytes fun _ => .replicate 512 7) (served ms) ∧ z.env.net = [] ∧
        z.mem = server.told ms := by
  intro ms x
  have hlegal : ∀ m ∈ ms, m.Legal 512 (twoBlocks.pages * 512) := by
    intro m hm
    simp only [ms, List.mem_cons, List.not_mem_nil, or_false] at hm
    rcases hm with rfl | rfl | rfl
    · exact fun _ => ⟨.inr (.inl rfl), by decide, by decide, by decide⟩
    · exact fun h => absurd h (by decide)
    · exact fun _ => ⟨.inl rfl, by decide, by decide, by decide⟩
  have hfilled : ∀ m ∈ ms, m.request.Filled 512 := by
    intro m hm
    simp only [ms, List.mem_cons, List.not_mem_nil, or_false] at hm
    rcases hm with rfl | rfl | rfl
    · exact fun _ => by decide
    · exact fun h => absurd h (by decide)
    · exact fun h => absurd h (by decide)
  have hlen : (twoBlocks.bytes fun _ => .replicate 512 7).length = 16384 := twoBlocks.length_bytes _
  have hdefault : DefaultExport eightPages server.ctx
      (twoBlocks.toExport rfl checksum 0 LwNBD.Sample.others LwNBD.Sample.plugin server.ctx.handle)
      x.host :=
    ⟨by decide, rfl, rfl, ⟨by decide, by decide, rfl, rfl, rfl, by decide, congrArg Nat.cast hlen⟩,
          ⟨_, rfl⟩, inserted_mounted⟩
  exact card_export_served twoBlocks rfl checksum 0 LwNBD.Sample.others
    LwNBD.Sample.plugin (by decide) (LwNBD.Sample.connected_dribble 5) (by decide) rfl x
    rfl hdefault hlegal hfilled

end Sample

end LwNBD.Mcman
