import LwNBD.Nbd.Sample
import LwNBD.Nbd.Secrets
import LwNBD.Plugins.Erasure
import LwNBD.Plugins.File
import LwNBD.Plugins.Memory
import LwNBD.Plugins.Tty

/-!
# What the content plugins disclose

The `pread` of each content plugin, as `transmission_phase` sees it: what it returns, and what it
stores in `nbd_buffer`. All store the blocks they are asked for when they return `0`, as far as what
they call does so, but two: that of `pcmstream` stores nothing, and that of `mcman` stores pages
where it is asked for blocks of 512 bytes.

A WRITE whose callback has no meaning is outside: one to `bdm` or `tty`, which have no `pwrite`, one
for which `command_pwrite` has no command to run, and one for which `mcman_pwrite` would leave
`nbd_buffer`.

## The model

* `Driver` — what `atad` and `bdm` call; `atadPread`, `atadPwrite`, `bdmPread`, `pcmstreamPread`,
  `pcmstreamPwrite` — the callbacks. Those of the other plugins are in modules of their own.
* `ContentPlugin` — the content plugins of the repository, each with what it is told and what it
  calls; `ContentPlugin.content` — what it makes of `nbd_buffer`.
* `ContentPlugin.Stores` — when its `pread` stores what is sent.

## What is proved

* `Tty.wp_nbdttyPread_length`, `FilePlugin.wp_filePread_length`, `Mcman.wp_mcmanPread_length` — what
  a read that succeeds has stored; `FilePlugin.filePwrite_same`, `Mcman.mcmanPwrite_same` — what a
  write looks at.
* `reads_disclose_nothing` — reads of a plugin that stores what is sent disclose nothing.
* `pcmstream_discreet_iff` — those of `pcmstream` do.
-/

namespace LwNBD

open Resumption

/-! ### The plugins that call a driver -/

/-- What `atad` and `bdm` call to read and write sectors. -/
structure Driver (δ : Type) where
  /-- `ata_device_sector_io` with `ATA_DIR_READ`, or `read` of a `struct block_device`. -/
  read (d : δ) (sector : UInt32) (count : ℕ) : Pread × δ
  /-- `ata_device_sector_io` with `ATA_DIR_WRITE`. -/
  write (d : δ) (sector : UInt32) (count : ℕ) (buf : Bytes) : ℤ × δ

/-- What the plugins rely on: a driver that returns `0` has stored the sectors, and it writes what
it is given. -/
structure Driver.Whole {δ : Type} (driver : Driver δ) (sectorSize : ℕ) : Prop where
  /-- All sectors are stored. -/
  read : ∀ d sector count, (driver.read d sector count).1.ret = 0 →
    (driver.read d sector count).1.data.length = count * sectorSize
  /-- What is written is in the sectors. -/
  write : ∀ d sector count buf buf', buf'.take (count * sectorSize) =
    buf.take (count * sectorSize) →
    driver.write d sector count buf' = driver.write d sector count buf

section Callbacks

variable {δ : Type} (driver : Driver δ) (d : δ)

/-- `atad_pread`. -/
def atadPread (count : UInt32) (offset : UInt64) (_flags : UInt32) : Pread × δ :=
  driver.read d offset.toUInt32 count.toNat

/-- `atad_pwrite`. -/
def atadPwrite (buf : Bytes) (count : UInt32) (offset : UInt64) (_flags : UInt32) : ℤ × δ :=
  driver.write d offset.toUInt32 count.toNat buf

/-- `bdm_pread`, where the driver takes a `u16`. -/
def bdmPread (count : UInt32) (offset : UInt64) (_flags : UInt32) : Pread × δ :=
  driver.read d offset.toUInt32 count.toUInt16.toNat

/-- `pcmstream_pread`, which stores nothing. -/
def pcmstreamPread (_count : UInt32) (_offset : UInt64) (_flags : UInt32) : Pread := ⟨0, []⟩

/-- `pcmstream_pwrite`: its result, and what it plays. -/
def pcmstreamPwrite (buf : Bytes) (count : UInt32) (_offset : UInt64) (_flags : UInt32) :
    ℤ × Bytes :=
  (0, buf.take count.toNat)

end Callbacks

/-! ### What the plugins do with the buffer -/

/-- `atad`, whose sectors have 512 bytes. -/
def atadContent {δ : Type} (driver : Driver δ) : Content where
  blockSize := 512
  Reads count offset r := ∃ d, r = (atadPread driver d count offset 0).1
  SameWrite count offset buf buf' :=
    ∀ d, atadPwrite driver d buf' count offset 0 = atadPwrite driver d buf count offset 0

/-- `bdm`, which has no `pwrite`. -/
def bdmContent {δ : Type} (driver : Driver δ) (sectorSize : UInt32) : Content where
  blockSize := sectorSize
  Reads count offset r := ∃ d, r = (bdmPread driver d count offset 0).1
  SameWrite _ _ _ _ := True

/-- `command`, where `cmd` is the command that `command_pwrite` runs. -/
def commandContent {δ : Type} (cmd : δ → Bytes → UInt32 → ℤ × δ) : Content where
  blockSize := 1
  Reads count offset r := ∃ s : CommandStatics, s.result.length = CMD_BUFFER_SZ ∧
    r = ⟨0, commandPread s count offset⟩
  SameWrite count _ buf buf' := ∀ d, cmd d buf' count = cmd d buf count

/-- `memory`. -/
def memoryContent {W : ℕ} (slice : MemoryConfig W) : Content where
  blockSize := 1
  Reads count offset r := ∃ ram, (r.ret, r.data) = memoryPread slice ram count offset 0
  SameWrite count offset buf buf' :=
    ∀ ram, memoryPwrite slice ram buf' count offset 0 = memoryPwrite slice ram buf count offset 0

/-- `pcmstream`. -/
def pcmstreamContent : Content where
  blockSize := 1
  Reads count offset r := r = pcmstreamPread count offset 0
  SameWrite count offset buf buf' :=
    pcmstreamPwrite buf' count offset 0 = pcmstreamPwrite buf count offset 0

/-- `tty`, which has no `pwrite`. -/
def ttyContent : Content where
  blockSize := 1
  Reads count _ r := ∃ fuel m, 0 ≤ m.rwhence ∧
    ((Tty.nbdttyPread fuel count).run Tty.flag m ()).out = .ret (r.ret, r.data)
  SameWrite _ _ _ _ := True

namespace FilePlugin

/-- What `file_pread` stored: the bytes that the calls stored, one after the other. -/
def bytesRead (t : List (Event FileCall FileResp)) : Bytes := t.flatMap fun
  | ⟨.pread .., some data⟩ => data
  | _ => []

/-- `file`. -/
def fileContent : Content where
  blockSize := 1
  Reads count offset r :=
    ∃ (σ : Type) (env : Env FileCall FileResp σ) (content : σ → ℕ → UInt8) (m : FileMem)
      (h : FileIdx) (w : σ) (fuel place : ℕ), IsFile env (m.fd h) content ∧
      ((filePread fuel h place count offset 0).run env m w).out = .ret r.ret ∧
      bytesRead ((filePread fuel h place count offset 0).run env m w).trace = r.data
  SameWrite count offset buf buf' :=
    ∀ (σ : Type) (env : Env FileCall FileResp σ) (content : σ → ℕ → UInt8) (m m' : FileMem)
      (h : FileIdx) (w : σ) (fuel place : ℕ), IsFile env (m.fd h) content →
      m'.slots = m.slots → stretch m.bytes place buf.length = buf →
      stretch m'.bytes place buf'.length = buf' →
      let z := (filePwrite fuel h place count offset 0).run env m w
      let z' := (filePwrite fuel h place count offset 0).run env m' w
      z'.out = z.out ∧ z'.env = z.env ∧ z'.trace = z.trace

end FilePlugin

namespace Mcman

/-- What `mcman_pread` stored: the pages that were read, one after the other. -/
def pagesRead (t : List (Event McCall McResp)) : Bytes := t.flatMap fun
  | ⟨.readPage .., r⟩ => r.data
  | _ => []

/-- A card library that stores a page if it says that it read one. -/
def StoresPages {σ : Type} (env : Env McCall McResp σ) (pageLen : ℕ) : Prop :=
  ∀ w port slot page, (env w (.readPage port slot page)).1.ret = 0 →
    (env w (.readPage port slot page)).1.data.length = pageLen

/-- `mcman`, for a card whose pages have `pageLen` bytes. -/
def mcmanContent (mcDataChecksum : Bytes → Vector UInt8 3) (handle : HandleIdx) (pageLen : UInt16) :
    Content where
  blockSize := 512
  Reads count offset r :=
    ∃ (σ : Type) (env : Env McCall McResp σ) (s : Statics) (w : σ) (buf buf' : Bytes),
      (s.handles handle).blocksize = pageLen ∧ StoresPages env pageLen.toNat ∧
      ((mcmanPread handle buf count offset 0).run env s w).out = .ret (r.ret, buf') ∧
      pagesRead ((mcmanPread handle buf count offset 0).run env s w).trace = r.data
  SameWrite count offset buf buf' := ∀ (σ : Type) (env : Env McCall McResp σ) (s : Statics) (w : σ),
    (s.handles handle).blocksize = pageLen →
      (mcmanPwrite mcDataChecksum handle buf' count offset 0).run env s w =
      (mcmanPwrite mcDataChecksum handle buf count offset 0).run env s w

end Mcman

/-! ### The plugins of the repository -/

/-- The content plugins of the repository, each with what it is told and what it calls. -/
inductive ContentPlugin where
  /-- `atad`. -/
  | atad {δ : Type} (driver : Driver δ)
  /-- `bdm`. -/
  | bdm {δ : Type} (driver : Driver δ) (sectorSize : UInt32)
  /-- `command`. -/
  | command {δ : Type} (cmd : δ → Bytes → UInt32 → ℤ × δ)
  /-- `file`. -/
  | file
  /-- `mcman`. -/
  | mcman (mcDataChecksum : Bytes → Vector UInt8 3) (handle : Mcman.HandleIdx) (pageLen : UInt16)
  /-- `memory`. -/
  | memory {W : ℕ} (slice : MemoryConfig W)
  /-- `pcmstream`. -/
  | pcmstream
  /-- `tty`. -/
  | tty

namespace ContentPlugin

/-- What it does with the buffer. -/
def content : ContentPlugin → Content
  | atad driver => atadContent driver
  | bdm driver sectorSize => bdmContent driver sectorSize
  | command cmd => commandContent cmd
  | file => FilePlugin.fileContent
  | mcman mcDataChecksum handle pageLen => Mcman.mcmanContent mcDataChecksum handle pageLen
  | memory slice => memoryContent slice
  | pcmstream => pcmstreamContent
  | tty => ttyContent

/-- When `pread` stores what is sent: that of `pcmstream` does not, unless there is nothing to be
sent, and that of `mcman` does if a page is a block. A driver has to do what it says, and a command
to look at no more than it is told. -/
def Stores (cfg : Config) : ContentPlugin → Prop
  | atad driver => driver.Whole 512
  | bdm driver sectorSize => driver.Whole sectorSize.toNat
  | command cmd =>
    ∀ d (buf buf' : Bytes) (count : UInt32), buf'.take count.toNat = buf.take count.toNat →
    cmd d buf' count = cmd d buf count
  | mcman _ _ pageLen => pageLen = 512 ∨ cfg.bufferLen < 512
  | pcmstream => cfg.bufferLen = 0
  | file | memory _ | tty => True

end ContentPlugin

/-! ### What is stored -/

section Stored

variable {cfg : Config}

theorem atadContent_fills {δ : Type} {driver : Driver δ} (h : driver.Whole 512) :
    (atadContent driver).Fills cfg where
  pread count offset r _ hr h0 := by
    obtain ⟨d, rfl⟩ := hr
    exact (h.read d _ _ h0).ge
  pwrite count offset buf buf' _ _ _ htake d := h.write d _ _ _ _ htake

theorem bdmContent_fills {δ : Type} {driver : Driver δ} {sectorSize : UInt32}
    (h : driver.Whole sectorSize.toNat) : (bdmContent driver sectorSize).Fills cfg where
  pread count offset r hin hr h0 := by
    obtain ⟨d, rfl⟩ := hr
    change count.toNat * sectorSize.toNat ≤ cfg.bufferLen at hin
    change count.toNat * sectorSize.toNat ≤ _
    have hle := cfg.bufferLen_le
    have hall := h.read d _ _ h0
    rcases Nat.eq_zero_or_pos sectorSize.toNat with hzero | hpos
    · rw [hzero, Nat.mul_zero]
      exact Nat.zero_le _
    · have hcount : count.toNat ≤ count.toNat * sectorSize.toNat := Nat.le_mul_of_pos_right _ hpos
      have hu16 : count.toUInt16.toNat = count.toNat := by
        rw [UInt32.toNat_toUInt16]
        exact Nat.mod_eq_of_lt (by omega)
      calc count.toNat * sectorSize.toNat
        _ = count.toUInt16.toNat * sectorSize.toNat := by rw [hu16]
        _ ≤ _ := hall.ge
  pwrite _ _ _ _ _ _ _ _ := trivial

theorem commandContent_fills {δ : Type} {cmd : δ → Bytes → UInt32 → ℤ × δ}
    (h : (ContentPlugin.command cmd).Stores cfg) : (commandContent cmd).Fills cfg where
  pread count offset r hin hr _ := by
    obtain ⟨s, hs, rfl⟩ := hr
    change count.toNat * 1 ≤ cfg.bufferLen at hin
    change count.toNat * 1 ≤ (s.result.take count.toNat).length
    have hle := cfg.bufferLen_le
    rw [List.length_take, hs, CMD_BUFFER_SZ]
    omega
  pwrite count offset buf buf' _ _ _ htake d := by
    change buf'.take (count.toNat * 1) = buf.take (count.toNat * 1) at htake
    rw [Nat.mul_one] at htake
    exact h d buf buf' count htake

theorem memoryContent_fills {W : ℕ} (slice : MemoryConfig W) : (memoryContent slice).Fills cfg where
  pread count offset r _ hr _ := by
    obtain ⟨ram, hr⟩ := hr
    obtain ⟨-, hdata⟩ := Prod.mk.inj hr
    change count.toNat * 1 ≤ r.data.length
    rw [hdata, length_stretch, Nat.mul_one]
  pwrite _ _ _ _ _ _ _ _ _ := rfl

theorem pcmstreamContent_fills (h : cfg.bufferLen = 0) : pcmstreamContent.Fills cfg where
  pread count offset r hin hr _ := by
    change count.toNat * 1 ≤ cfg.bufferLen at hin
    change count.toNat * 1 ≤ _
    omega
  pwrite count offset buf buf' _ _ _ htake := by
    change buf'.take (count.toNat * 1) = buf.take (count.toNat * 1) at htake
    change (0, buf'.take count.toNat) = (0, buf.take count.toNat)
    rw [Nat.mul_one] at htake
    rw [htake]

/-- A read of the terminal stores all bytes. -/
theorem Tty.wp_nbdttyPread_length {m : Tty.TtyMem} (hm : 0 ≤ m.rwhence) (fuel : ℕ) {count : UInt32}
    (hcount : count.toNat ≤ Tty.TTY_SIZE) :
    wp Tty.flag (Tty.nbdttyPread fuel count) (fun o _ _ _ => ∀ r, o = .ret r →
      r.2.length = count.toNat) m () := by
  obtain ⟨r, hr⟩ := Int.eq_ofNat_of_zero_le hm
  unfold Tty.nbdttyPread
  rw [wp_bind, wp_read, Post.seq_ret, wp_bind, hr, Tty.tmod_TTY_SIZE]
  refine wp_mono _ ?_ (Tty.wp_wait count fuel)
  rintro (⟨⟩ | e) m' w' t ⟨rfl, -, -⟩
  · rw [Post.seq_ret, wp_bind]
    refine wp_mono _ ?_ (Tty.wp_readParts r hcount)
    rintro _ m' w' t ⟨rfl, rfl, -⟩
    rw [Post.seq_ret, wp_bind, wp_read, Post.seq_ret, Tty.addInt64, hr]
    split_ifs
    · rw [wp_bind, wp_pure, Post.seq_ret, wp_bind, wp_modify, Post.seq_ret, wp_bind, wp_read,
        Post.seq_ret, wp_bind, wp_perform, Post.seq_ret, wp_pure]
      rintro _ ⟨⟩
      rw [Ring.take_eq hcount, List.length_map, List.length_range]
    · rw [wp_bind, wp_halt, Post.seq_halt]
      rintro _ ⟨⟩
  · rintro _ ⟨⟩

theorem ttyContent_fills : ttyContent.Fills cfg where
  pread count offset r hin hr _ := by
    obtain ⟨fuel, m, hm, hout⟩ := hr
    change count.toNat * 1 ≤ cfg.bufferLen at hin
    change count.toNat * 1 ≤ r.data.length
    have hle := cfg.bufferLen_le
    have hcount : count.toNat ≤ Tty.TTY_SIZE := by
      rw [Tty.TTY_SIZE]
      omega
    rw [Nat.mul_one]
    exact (Tty.wp_nbdttyPread_length hm fuel hcount _ hout).ge
  pwrite _ _ _ _ _ _ _ _ := trivial

end Stored

/-! ### Files -/

namespace FilePlugin

variable {σ : Type} {env : Env FileCall FileResp σ} {content : σ → ℕ → UInt8}
  {m m' : FileMem} {h : FileIdx}

@[simp] theorem bytesRead_append (t t' : List (Event FileCall FileResp)) :
    bytesRead (t ++ t') = bytesRead t ++ bytesRead t' := List.flatMap_append

theorem wp_sysPread_length (hf : IsFile env (m.fd h) content) (x : Transfer) (w : σ) :
    wp env (sysPread h x) (fun o m' _ t => m'.slots = m.slots ∧ ∃ r, o = .ret r ∧
      ∀ n, r = some n → n ≤ x.count.toNat ∧ (bytesRead t).length = n) m w := by
  unfold sysPread
  rw [wp_bind, wp_read, Post.seq_ret, wp_bind, wp_perform, Post.seq_ret]
  cases hr : (env w (.pread (m.fd h) x.count.toNat (offT x.offset))).1 with
  | none => exact ⟨rfl, none, rfl, by simp⟩
  | some data =>
    dsimp only
    rw [wp_bind, wp_modify, Post.seq_ret, wp_pure]
    refine ⟨rfl, some data.length, rfl, ?_⟩
    rintro n ⟨⟩
    exact ⟨(hf.pread w _ _ data hr).2.1, by simp [bytesRead]⟩

/-- A read that succeeds has stored all bytes. -/
theorem wp_filePread_length (hf : IsFile env (m.fd h) content) (fuel place : ℕ)
    (count : UInt32) (offset : UInt64) (flags : UInt32) (w : σ) :
    wp env (filePread fuel h place count offset flags)
      (fun o _ _ t => o = .ret 0 → (bytesRead t).length = count.toNat) m w := by
  rw [filePread, ← Post.after_nil fun o _ _ t => o = .ret 0 → (bytesRead t).length = count.toNat]
  refine wp_loop env (fun x m' _ t => m'.slots = m.slots ∧
    (bytesRead t).length + x.count.toNat = count.toNat) (by simp) ?_ fuel _ m w []
    ⟨rfl, Nat.zero_add _⟩
  rintro x m' w' t ⟨hm, ht⟩
  have hfd : m'.fd h = m.fd h := by rw [FileMem.fd, FileMem.fd, hm]
  refine wp_preadRound (fun hzero => ?_) (fun _ => wp_sysPread_length (hfd ▸ hf) x w') ?_ ?_ ?_
  · rw [Post.round_done, List.append_nil]
    rw [hzero] at ht
    exact fun _ => ht
  · intro r m'' w'' t' _ _ _
    rw [Post.round_done]
    rintro ⟨⟩
  · rintro n m'' w'' t' - - ⟨hm', r, heq, hr⟩
    obtain ⟨hn, hlen⟩ := hr n (Outcome.ret.inj heq).symm
    rw [Post.round_next]
    refine ⟨hm'.trans hm, ?_⟩
    rw [bytesRead_append, List.length_append, hlen, Transfer.advance_count hn]
    omega
  · rintro e m'' w'' t' - ⟨-, r, heq, -⟩
    cases heq

theorem run_pwriteRound {x : Transfer} {fd : ℤ} {data : Bytes}
    (hx : x.count ≠ 0) (hfd : m.fd h = fd) (hdata : stretch m.bytes x.buf x.count.toNat = data)
    (w : σ) : (pwriteRound h x).run env m w =
      let r : Option ℕ := (env w (.pwrite fd data (offT x.offset))).1
      ⟨.ret (r.elim (.done (-1)) fun r => .next (x.advance r)), m,
      (env w (.pwrite fd data (offT x.offset))).2,
        [⟨.pwrite fd data (offT x.offset), r⟩]⟩ := by
  subst hfd hdata
  rw [pwriteRound, if_neg hx, Prog.run_bind, sysPwrite, Prog.run_bind, Prog.run_read]
  simp only [Result.andThen, Prog.run_perform, List.nil_append]
  cases (env w (.pwrite (m.fd h) (stretch m.bytes x.buf x.count.toNat) (offT x.offset))).1 with
  | none => rfl
  | some r => rfl

/-- A write looks at no more than it writes. -/
theorem filePwrite_same (hf : IsFile env (m.fd h) content) (hm : m'.slots = m.slots) (n : ℕ)
    (x : Transfer) (w : σ) (hbytes : ∀ i < x.count.toNat, m'.bytes (x.buf + i) =
      m.bytes (x.buf + i)) :
    let z := (Prog.loop n (pwriteRound h) x).run env m w
    let z' := (Prog.loop n (pwriteRound h) x).run env m' w
    z'.out = z.out ∧ z'.env = z.env ∧ z'.trace = z.trace := by
  induction n generalizing x w with
  | zero => exact ⟨rfl, rfl, rfl⟩
  | succ n ih =>
    by_cases hzero : x.count = 0
    · simp [Prog.loop, pwriteRound, hzero]
    · have hfd : m'.fd h = m.fd h := by rw [FileMem.fd, FileMem.fd, hm]
      have hstretch : stretch m'.bytes x.buf x.count.toNat = stretch m.bytes x.buf x.count.toNat :=
        List.map_congr_left fun i hi => hbytes i (List.mem_range.mp hi)
      simp only [Prog.loop, Prog.run_bind]
      rw [run_pwriteRound hzero hfd hstretch, run_pwriteRound hzero rfl rfl]
      simp only [Result.andThen]
      cases hr :
        (env w (.pwrite (m.fd h) (stretch m.bytes x.buf x.count.toNat) (offT x.offset))).1 with
      | none => exact ⟨rfl, rfl, rfl⟩
      | some r =>
        have hle : r ≤ x.count.toNat := by
          have := (hf.pwrite w _ _ r hr).2.1
          simpa [stretch] using this
        refine (ih (x.advance r) _ fun i hi => ?_).imp id fun hrest => hrest.imp id fun htrace => ?_
        · rw [Transfer.advance_count hle] at hi
          have := hbytes (r + i) (by omega)
          rwa [← Nat.add_assoc] at this
        · exact congrArg _ htrace

theorem fileContent_fills {cfg : Config} : fileContent.Fills cfg where
  pread count offset r _ hr h0 := by
    obtain ⟨σ, env, content, m, h, w, fuel, place, hf, hout, hdata⟩ := hr
    change count.toNat * 1 ≤ r.data.length
    rw [h0] at hout
    rw [Nat.mul_one, ← hdata]
    exact (wp_filePread_length hf fuel place count offset 0 w hout).ge
  pwrite count offset buf buf' hin hbuf hbuf' htake := by
    intro σ env content m m' h w fuel place hf hm hb hb'
    change count.toNat * 1 ≤ cfg.bufferLen at hin
    change buf'.take (count.toNat * 1) = buf.take (count.toNat * 1) at htake
    rw [Nat.mul_one] at hin htake
    have hat (m : FileMem) (buf : Bytes) (hlen : buf.length = cfg.bufferLen)
        (hb : stretch m.bytes place buf.length = buf) {i : ℕ} (hi : i < count.toNat) :
        (buf.take count.toNat)[i]? = some (m.bytes (place + i)) := by
      rw [List.getElem?_take_of_lt hi, ← hb, stretch, List.getElem?_map,
        List.getElem?_range (by omega), Option.map_some]
    refine filePwrite_same hf hm fuel _ w fun i hi => Option.some_inj.mp ?_
    change some (m'.bytes (place + i)) = some (m.bytes (place + i))
    rw [← hat m' buf' hbuf' hb' hi, ← hat m buf hbuf hb hi, htake]

end FilePlugin

/-! ### Memory cards -/

/-- Blocks that fit in a buffer that is smaller than one. -/
theorem Content.Within.eq_zero {c : Content} {cfg : Config} {count : UInt32}
    (h : c.Within cfg count) (hlt : cfg.bufferLen < c.blockSize.toNat) : count.toNat = 0 := by
  by_contra hne
  have hle : c.blockSize.toNat ≤ count.toNat * c.blockSize.toNat :=
    Nat.le_mul_of_pos_left _ (Nat.pos_of_ne_zero hne)
  unfold Content.Within at h
  omega

namespace Mcman

section Card

variable {σ : Type} {env : Env McCall McResp σ} {pageLen : ℕ}

@[simp] theorem pagesRead_append (t t' : List (Event McCall McResp)) :
    pagesRead (t ++ t') = pagesRead t ++ pagesRead t' := List.flatMap_append

theorem wp_checked {α : Type} {n : ℤ} {f : ℤ → Mc α} {Q : Post Statics McCall McResp σ α}
    {s : Statics} {w : σ} (h : wp env (f n) Q s w) (hnot : Q (.halt .undefined) s w []) :
    wp env (checked n >>= f) Q s w := by
  by_cases hn : -2 ^ 31 ≤ n ∧ n < 2 ^ 31
  · rw [checked_eq hn.1 hn.2, pure_bind]
    exact h
  · rw [checked_undefined hn]
    exact hnot

/-- A read that succeeds has stored all pages. -/
theorem wp_mcmanPread_length (henv : StoresPages env pageLen) (handle : HandleIdx)
    (buf : Bytes) (count : UInt32) (offset : UInt64) (flags : UInt32) (s : Statics) (w : σ) :
    wp env (mcmanPread handle buf count offset flags)
      (fun o _ _ t => ∀ buf', o = .ret (0, buf') → (pagesRead t).length = count.toNat * pageLen)
      s w := by
  unfold mcmanPread
  rw [wp_bind, wp_read, Post.seq_ret, Post.after_nil, wp_bind]
  refine wp_mono env ?_ (wp_count env (Q := fun o _ _ _ => ∀ r, o = .ret r → r.1 ≠ 0)
    (fun j _ _ _ t => (pagesRead t).length = j * pageLen) ?_ count.toNat 0
    (Nat.zero_add _) (h := []) (Nat.zero_mul _).symm)
  · rintro ((b | r) | e) s' w' t ht
    · rw [Post.round_next, List.nil_append] at ht
      rw [Post.seq_ret, wp_pure, Post.after_apply, List.append_nil]
      exact fun _ _ => ht
    · rw [Post.seq_ret, wp_pure]
      intro buf' hr
      cases hr
      exact absurd rfl (ht _ rfl)
    · rintro buf' ⟨⟩
  · intro j b s' w' t _ ht
    unfold preadPage
    refine wp_checked ?_ (by simp)
    rw [wp_bind, wp_perform, Post.seq_ret]
    split_ifs with hin hr
    · rw [wp_pure, Post.after_apply, Post.round_done]
      rintro _ ⟨⟩
      exact hr
    · refine wp_checked ?_ (by simp)
      rw [wp_pure, Post.after_apply, Post.round_next, List.append_nil, pagesRead_append,
        List.length_append, ht]
      have hpage := henv w' _ 0 _ (not_not.mp hr)
      have hread :
          (pagesRead [⟨.readPage ((s.handles handle).device) 0 (asInt (offset + j.toUInt64).toNat),
          (env w' (.readPage ((s.handles handle).device) 0
          (asInt (offset + j.toUInt64).toNat))).1⟩]).length =
            pageLen := by
        rw [pagesRead, List.flatMap_singleton]
        exact hpage
      rw [hread, Nat.add_mul, Nat.one_mul]
    · rw [wp_halt, Post.after_apply, Post.round_halt]
      rintro _ ⟨⟩

end Card

section Write

variable {mcDataChecksum : Bytes → Vector UInt8 3} {buf buf' : Bytes} {pageSize : ℕ}

/-- Programs that make the same calls. -/
abbrev SameCalls {α β : Type} (ρ : α → β → Prop) : Mc α → Mc β → Prop := Twins Eq Eq ρ

/-- What comes after a number that is checked depends on no other. -/
theorem sameCalls_checked {α β : Type} {ρ : α → β → Prop} {n : ℤ} {f : ℤ → Mc α} {g : ℤ → Mc β}
    (h : SameCalls ρ (f n) (g n)) : SameCalls ρ (checked n >>= f) (checked n >>= g) := by
  by_cases hn : -2 ^ 31 ≤ n ∧ n < 2 ^ 31
  · rw [checked_eq hn.1 hn.2, pure_bind, pure_bind]
    exact h
  · rw [checked_undefined hn]
    exact .halt

theorem asInt_le (n : ℕ) : asInt n ≤ n := by
  by_cases hn : n < 2 ^ 31
  · exact (asInt_eq hn).le
  · have := asInt_lt n
    omega

/-- Pages are injected from no more than their bytes. -/
theorem injectPages_same (hlen : buf'.length = buf.length) {nPages : ℤ}
    (htake : 0 ≤ nPages * pageSize → buf'.take (nPages * pageSize).toNat =
      buf.take (nPages * pageSize).toNat)
    (port block offset : ℤ) (ppb : ℕ) :
    injectPages mcDataChecksum port block pageSize offset nPages ppb buf' =
      injectPages mcDataChecksum port block pageSize offset nPages ppb buf := by
  have hinject : injectBuffer pageSize offset nPages buf' = injectBuffer pageSize
      offset nPages buf := by
    refine Twins.eq (sameCalls_checked (sameCalls_checked ?_))
    rw [hlen]
    by_cases hnonneg : 0 ≤ nPages * pageSize
    · rw [htake hnonneg]
      exact .refl _
    · simp only [hnonneg, false_and, and_false, if_false]
      exact .refl _
  rw [injectPages, hinject, injectPages]

/-- The rounds of a write, while no more pages are left than were asked for. -/
theorem pwriteBlock_same {h : Handle} {count endBlock : ℕ} (hlen : buf'.length = buf.length)
    (htake : buf'.take (count * h.blocksize.toNat) = buf.take (count * h.blocksize.toNat))
    {x : PwriteVars} (hx : x.remainingPages + x.writtenPages ≤ count) :
    SameCalls (Ctl.Rel (fun y y' : PwriteVars => y' = y ∧ y.remainingPages + y.writtenPages ≤ count)
      Eq) (pwriteBlock mcDataChecksum h buf endBlock x)
      (pwriteBlock mcDataChecksum h buf' endBlock x) := by
  unfold pwriteBlock
  refine .ite (fun _ => Twins.read.bind_same fun s => sameCalls_checked ?_) fun _ => .ret rfl
  rw [hlen]
  refine .ite (fun hplace => ?_) fun _ => .halt
  generalize hn : (if ((s.pagesPerBlock.toNat : ℤ) - x.blockOffset ≤ x.remainingPages) then
    (s.pagesPerBlock.toNat : ℤ) - x.blockOffset else x.remainingPages) = nPages
  have hle : nPages ≤ x.remainingPages := by
    rw [← hn]
    split_ifs with h
    · exact h
    · exact le_refl _
  have hsame : injectPages mcDataChecksum h.device x.i h.blocksize.toNat x.blockOffset nPages
      s.pagesPerBlock.toNat (buf'.drop (x.writtenPages * h.blocksize.toNat).toNat) =
        injectPages mcDataChecksum h.device x.i h.blocksize.toNat x.blockOffset nPages
        s.pagesPerBlock.toNat
      (buf.drop (x.writtenPages * h.blocksize.toNat).toNat) := by
    refine injectPages_same (by rw [List.length_drop, List.length_drop, hlen])
      (fun hnonneg => ?_) _ _ _ _
    have hend : (x.writtenPages * h.blocksize.toNat).toNat + (nPages * h.blocksize.toNat).toNat ≤
        count * h.blocksize.toNat := by
      have hpages : x.writtenPages + nPages ≤ count := by omega
      have := Int.mul_le_mul_of_nonneg_right hpages (Int.natCast_nonneg h.blocksize.toNat)
      rw [Int.add_mul] at this
      omega
    have hslice := List.slice_take (l := buf') hend
    rw [htake, List.slice_take hend] at hslice
    exact hslice.symm
  rw [hsame]
  refine (Twins.refl _).bind_same fun result => .ite (fun _ => .ret rfl) fun _ => ?_
  refine (Twins.refl _).bind_same fun i => .ret ⟨rfl, ?_⟩
  dsimp only
  omega

/-- A write looks at no more than its pages. -/
theorem mcmanPwrite_same {σ : Type} (env : Env McCall McResp σ) {handle : HandleIdx}
    {count : UInt32} {s : Statics} (hlen : buf'.length = buf.length)
    (htake : buf'.take (count.toNat * (s.handles handle).blocksize.toNat) =
      buf.take (count.toNat * (s.handles handle).blocksize.toNat)) (offset : UInt64)
    (flags : UInt32) (w : σ) :
    (mcmanPwrite mcDataChecksum handle buf' count offset flags).run env s w =
      (mcmanPwrite mcDataChecksum handle buf count offset flags).run env s w := by
  have hloop (endBlock n : ℕ) (x : PwriteVars)
      (hx : x.remainingPages + x.writtenPages ≤ count.toNat) :
      Prog.loop n (pwriteBlock mcDataChecksum (s.handles handle) buf' endBlock) x =
        Prog.loop n (pwriteBlock mcDataChecksum (s.handles handle) buf endBlock) x := by
    refine Twins.eq (Twins.loop (fun y y' : PwriteVars => y' = y ∧
      y.remainingPages + y.writtenPages ≤ count.toNat) ?_ n ⟨rfl, hx⟩)
    rintro y _ ⟨rfl, hy⟩
    exact pwriteBlock_same hlen htake hy
  simp only [mcmanPwrite, Prog.run_bind, Prog.run_read, Result.andThen]
  split_ifs
  · rfl
  · rw [hloop _ _ _ (by rw [Int.add_zero]; exact asInt_le _)]

end Write

theorem mcmanContent_fills {cfg : Config} {mcDataChecksum : Bytes → Vector UInt8 3}
    {handle : HandleIdx} {pageLen : UInt16} (h : pageLen = 512 ∨ cfg.bufferLen < 512) :
    (mcmanContent mcDataChecksum handle pageLen).Fills cfg where
  pread count offset r hin hr h0 := by
    obtain ⟨σ, env, s, w, buf, buf', -, henv, hout, hdata⟩ := hr
    rw [h0] at hout
    have hlen := wp_mcmanPread_length henv handle buf count offset 0 s w buf' hout
    rw [hdata] at hlen
    change count.toNat * 512 ≤ r.data.length
    rcases h with rfl | hlt
    · exact hlen.ge
    · rw [hin.eq_zero hlt, Nat.zero_mul]
      exact Nat.zero_le _
  pwrite count offset buf buf' hin hbuf hbuf' htake σ env s w hpage := by
    refine mcmanPwrite_same env (hbuf'.trans hbuf.symm) ?_ offset 0 w
    rw [hpage]
    rcases h with rfl | hlt
    · exact htake
    · rw [hin.eq_zero hlt, Nat.zero_mul, List.take_zero, List.take_zero]

end Mcman

/-! ### Nothing is disclosed -/

/-- A plugin that stores what is sent fills the buffer. -/
theorem ContentPlugin.Stores.fills {cfg : Config} {p : ContentPlugin} (h : p.Stores cfg) :
    p.content.Fills cfg := by
  cases p with
  | atad driver => exact atadContent_fills h
  | bdm driver sectorSize => exact bdmContent_fills h
  | command cmd => exact commandContent_fills h
  | file => exact FilePlugin.fileContent_fills
  | mcman mcDataChecksum handle pageLen => exact Mcman.mcmanContent_fills h
  | memory slice => exact memoryContent_fills slice
  | pcmstream => exact pcmstreamContent_fills h
  | tty => exact ttyContent_fills

/-- **Reads disclose nothing**: whatever is asked for, the data that a client is sent does not
depend on what `nbd_buffer` held, and was stored by `pread` for that request. -/
theorem reads_disclose_nothing (cfg : Config) (p : ContentPlugin) (h : p.Stores cfg) :
    Discreet cfg p.content :=
  h.fills.discreet

namespace Sample

/-- A host on whose stack there is nothing but `b`, and whose `pread` stores what `stored` says. -/
def stack (b : UInt8) (stored : ℕ → Bytes) : Env Call Resp Unit
  | _, .uninit 2 => (⟨[b, b], rfl⟩, ())
  | _, .pread _ _ count _ => (⟨0, stored count.toNat⟩, ())
  | w, e => quiet w e

/-- Memory that is zero. -/
def zeroed (count : ℕ) : Bytes := List.replicate count 0

/-- A client that reads the first byte. -/
def firstByte : Wire Unit := Sample.client (ask NBD_CMD_READ 0 1).toBytes

theorem hosts_memory (b : UInt8) :
    (memoryContent Sample.slice).Hosts Sample.cfg (wire (stack b zeroed)) where
  pread w p handle count offset _ := by
    refine ⟨fun _ => 0, ?_⟩
    rw [memoryPread, stretch, List.map_const', List.length_range]
    rfl
  pwrite _ _ _ _ _ _ _ _ _ := rfl

theorem onlyBuffer_stack (b b' : UInt8) (stored : ℕ → Bytes) :
    OnlyBuffer Sample.cfg (wire (stack b stored)) (wire (stack b' stored)) firstByte where
  request := rfl
  nbdBuffer := rfl
  call w e he := by
    cases e with
    | uninit n => exact absurd rfl (he n)
    | _ => rfl

/-- A read of memory sends the same from either stack. -/
theorem reads_disclose_nothing_memory :
    dataSent ((transmissionPhase Sample.cfg 8).run (wire (stack 1 zeroed))
      Sample.mem firstByte).trace =
      dataSent ((transmissionPhase Sample.cfg 8).run (wire (stack 0 zeroed))
      Sample.mem firstByte).trace ∧
    Fetched ((transmissionPhase Sample.cfg 8).run (wire (stack 0 zeroed))
      Sample.mem firstByte).trace :=
  reads_disclose_nothing Sample.cfg (.memory Sample.slice) trivial _ _ _ Sample.mem firstByte 8
    rfl (hosts_memory 0) (onlyBuffer_stack 0 1 zeroed)

end Sample

/-! ### A plugin that stores nothing -/

section Pcmstream

variable {cfg : Config}

/-- A byte is sent. -/
def SendsByte (t : List Ev) : Prop :=
  ∃ sock buf flags, ∃ k : Sent buf.length, buf ≠ [] ∧ ⟨.send sock .nbdBuffer buf flags, k⟩ ∈ t

theorem readLoop_sends {x : Vars} {s : Shared} {p : Plugin} (hx : x.Ok cfg 1)
    (hflag : x.sendflag ≠ 0) (hpos : 0 < (x.chunk 1).bufblksz.toNat) (hp : s.ctx.p = some p)
    (n : ℕ) (w : Wire Unit) :
    wp (wire quiet) (Prog.loop (n + 1) (readChunk cfg 1) x) (fun _ _ _ t => SendsByte t) s w := by
  refine wp_loop_first _ (wp_readChunk hp hflag (fun r w₁ _ _ => ?_) fun r w₁ hr hne => ?_)
  · have hz := hx.chunk.fill (d := r.data)
    have hne : ((x.chunk 1).fill r.data).nbdBuffer.take ((x.chunk 1).fill r.data).byteread.toNat ≠
        [] := by
      rw [← List.length_pos_iff_ne_nil, hz.length_take, hz.bytes]
      exact Nat.mul_pos hpos Nat.one_pos
    have hsends (k : Sent _) (t : List Ev) :
        SendsByte ([⟨.pread p s.ctx.handle (x.chunk 1).bufblksz x.offset, r⟩] ++
          [⟨.send s.ctx.sock .nbdBuffer
          (((x.chunk 1).fill r.data).nbdBuffer.take ((x.chunk 1).fill r.data).byteread.toNat)
          ((x.chunk 1).fill r.data).sendflag, k⟩] ++ t) := ⟨_, _, _, k, hne, .tail _ (.head _)⟩
    exact wp_sendChunk (fun k _ _ _ _ _ _ t => hsends k t) fun k _ _ _ _ _ _ t => hsends k t
  · obtain ⟨rfl, -⟩ := Prod.mk.inj hr
    exact absurd rfl hne

/-- A read of the `pcmstream` plugin sends a byte, if the buffer has one. -/
theorem pcmstream_sends (h : 0 < cfg.bufferLen) :
    SendsByte ((transmissionPhase cfg 2).run (wire quiet) Sample.mem Sample.firstByte).trace := by
  refine (?_ : wp (wire quiet) (transmissionPhase cfg 2) (fun _ _ _ t => SendsByte t)
    Sample.mem Sample.firstByte)
  have hq : requestAt (wire quiet) (firstHead (wire quiet) cfg Sample.mem Sample.firstByte) =
      some (Sample.ask NBD_CMD_READ 0 1) := rfl
  have hx :
      ((varsAt (wire quiet) (firstHead (wire quiet) cfg Sample.mem Sample.firstByte)).accept cfg 1
      (Sample.ask NBD_CMD_READ 0 1)).Ok cfg 1 := (varsAt_ok firstHead_ok).accept
  refine wp_transmissionPhase
    (wp_loop_first _ (wp_round_read hq rfl (wp_cmdRead_accepted rfl (by decide) ?_)))
  intro k w₁ _
  refine wp_mono _ ?_ (readLoop_sends hx (show MSG_MORE ≠ 0 by decide) ?_ rfl 1 w₁)
  · rintro o s' w' t ⟨sock, buf, flags, k', hne, hmem⟩ o' s'' w'' t'
    refine ⟨sock, buf, flags, k', hne, ?_⟩
    simp [hmem]
  · rw [chunk_bufblksz, accept_blkremains, accept_bufblksz, lt_min_iff]
    refine ⟨by decide, ?_⟩
    change 0 < cfg.bufferLen / 1
    rw [Nat.div_one]
    exact h

/-- The bytes that `pread` stored, if the call is one. -/
def storedLength : Ev → ℤ
  | ⟨.pread .., r⟩ => r.data.length
  | _ => 0

/-- Reads of the `pcmstream` plugin disclose what the buffer held, unless it has no bytes. -/
theorem pcmstream_discreet_iff (cfg : Config) :
    Discreet cfg pcmstreamContent ↔ cfg.bufferLen = 0 := by
  refine ⟨fun h => ?_, fun h => (pcmstreamContent_fills h).discreet⟩
  by_contra hne
  have hhost : pcmstreamContent.Hosts cfg (wire quiet) :=
    ⟨fun _ _ _ _ _ _ => rfl, fun _ _ _ _ _ _ _ _ _ => rfl⟩
  have honly : OnlyBuffer cfg (wire quiet) (wire quiet) Sample.firstByte :=
    ⟨rfl, rfl, fun _ _ _ => rfl⟩
  have hfetched := (h _ (wire quiet) (wire quiet) Sample.mem Sample.firstByte 2 rfl hhost honly).2
  obtain ⟨sock, buf, flags, k, hbuf, hmem⟩ := pcmstream_sends (Nat.pos_of_ne_zero hne)
  obtain ⟨h₁, h₂, hsplit⟩ := List.append_of_mem hmem
  obtain ⟨h₀, p, handle, count, offset, r, rfl, hr⟩ := hfetched h₁ sock buf flags h₂ k hsplit
  -- what `pread` stored is told by the environment
  have hstored : Clean storedLength
      ((transmissionPhase cfg 2).run (wire quiet) Sample.mem Sample.firstByte).trace := by
    refine clean_run (fun w e => ?_) _ _ _
    cases e <;> rfl
  have hnone := hstored ⟨.pread p handle count offset, r⟩ (by rw [hsplit]; simp)
  have hnil : r.data = [] := List.eq_nil_of_length_eq_zero (Int.natCast_eq_zero.mp hnone)
  rw [hnil, List.prefix_nil] at hr
  exact hbuf hr

end Pcmstream

namespace Sample

theorem hosts_pcmstream (b : UInt8) :
    pcmstreamContent.Hosts Sample.cfg (wire (stack b fun _ => [])) where
  pread _ _ _ _ _ _ := rfl
  pwrite _ _ _ _ _ _ _ _ _ := rfl

/-- **A read of the `pcmstream` plugin** sends what was on the stack. -/
theorem pcmstream_discloses : ¬ Discreet Sample.cfg ContentPlugin.pcmstream.content := by
  intro h
  have hsame :=
    (h _ (wire (stack 0 fun _ => [])) (wire (stack 1 fun _ => [])) Sample.mem firstByte 8
    rfl (hosts_pcmstream 0) (onlyBuffer_stack 0 1 fun _ => [])).1
  exact absurd hsame (by decide +kernel)

end Sample

end LwNBD
