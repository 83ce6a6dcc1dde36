import LwNBD.Nbd.Paged
import LwNBD.Nbd.Served
import LwNBD.Plugins.Contents

/-!
# A hard disk that is served

`plugins/atad/atad_d.c`: a server that serves a hard disk over a socket. The plugin hands the driver
the sector as a number of 32 bits, whatever the offset is. But a drive tells the number of its
sectors in 32 bits too, and the constructor makes the size of the export from it: no request that is
in the export has its offset cut.

## The model

* `AtaDriver` — the driver, with what `LwNBD.Plugins.Contents` leaves out; `atadCtor`, `atadFlush`,
  `atadGetSize`, `atadBlockSize` — the other callbacks.
* `IsDrive` — a drive that works.
* `atadHost` — the host of a session whose callbacks are those of the plugin; `driveExport` — the
  export.

## What is proved

* `atadCtor_size` — the size of the export is that of the drive.
* `atadHost_isPaged` — the plugin reads and writes sectors.
* `drive_export_served` — over a socket, a session serves the drive as an ideal disk.
-/

namespace LwNBD.Atad

open Resumption

/-! ### The other callbacks -/

/-- `MAX_DEVICES`. -/
def MAX_DEVICES : ℕ := 2

instance : NeZero MAX_DEVICES := ⟨Nat.succ_ne_zero 1⟩

/-- What the plugin looks at of an `ata_devinfo_t`. -/
structure AtaDevinfo where
  /-- `exists`. -/
  present : ℤ
  /-- `total_sectors`. -/
  totalSectors : UInt32

/-- `struct handle`. -/
structure AtaHandle where
  /-- `device`. -/
  device : Fin MAX_DEVICES
  /-- `size`. -/
  size : Int64

/-- What `atad` calls. -/
structure AtaDriver (δ : Type) extends Driver δ where
  /-- `ata_device_flush_cache`. -/
  flushCache (d : δ) : ℤ × δ

/-- `atad_ctor`: what it returns, the handle, and what it makes of the context. `info` is what
`ata_get_devinfo` returns for the device. -/
def atadCtor (info : Option AtaDevinfo) (device : Fin MAX_DEVICES) (c : Context) :
    ℤ × Option AtaHandle × Context :=
  match info with
  | some info =>
    if info.present ≠ 0 then
      (0, some ⟨device, .ofNat info.totalSectors.toNat * 512⟩,
        { c with handle := device.val, name := literal ("hdd" ++ toString device.val) })
    else (1, none, c)
  | none => (1, none, c)

/-- `atad_flush`. -/
def atadFlush {δ : Type} (driver : AtaDriver δ) (d : δ) (_flags : UInt32) : ℤ × δ :=
  driver.flushCache d

/-- `atad_get_size`. -/
def atadGetSize (h : AtaHandle) : Int64 := h.size

/-- `atad_block_size`. -/
def atadBlockSize : UInt32 × UInt32 × UInt32 := (512, 4096, 4096)

/-- The size of the export is that of the drive. -/
theorem atadCtor_size {info : Option AtaDevinfo} {device : Fin MAX_DEVICES} {c c' : Context}
    {r : ℤ} {h : AtaHandle} (hctor : atadCtor info device c = (r, some h, c')) :
    ∃ i ∈ info, (atadGetSize h).toInt = i.totalSectors.toNat * 512 := by
  unfold atadCtor at hctor
  cases info with
  | none => cases hctor
  | some i =>
    dsimp only at hctor
    by_cases hp : i.present ≠ 0
    · rw [if_pos hp] at hctor
      cases hctor
      have hlt := i.totalSectors.toNat_lt
      have hsectors : (Int64.ofNat i.totalSectors.toNat).toInt = i.totalSectors.toNat :=
        Int64.toInt_ofNat_of_lt (by omega)
      refine ⟨i, rfl, ?_⟩
      rw [atadGetSize, Int64.toInt_mul, hsectors]
      exact Int.bmod_eq_of_le_mul_two (by simp; omega) (by simp; omega)
    · rw [if_neg hp] at hctor
      cases hctor

/-! ### A drive -/

variable {δ : Type}

/-- A drive that works: it reads and writes the sectors it is asked for, if it has them. -/
structure IsDrive (driver : AtaDriver δ) (sector : δ → ℕ → Bytes) (sectors : UInt32) : Prop where
  /-- A sector has 512 bytes. -/
  length : ∀ d i, (sector d i).length = 512
  /-- Sectors are read. -/
  read : ∀ d lba n, lba.toNat + n ≤ sectors.toNat →
    (driver.read d lba n).1 = ⟨0, (stretch (sector d) lba.toNat n).flatten⟩ ∧
    sector (driver.read d lba n).2 = sector d
  /-- Sectors are written. -/
  write : ∀ d lba n buf, lba.toNat + n ≤ sectors.toNat → n * 512 ≤ buf.length →
    (driver.write d lba n buf).1 = 0 ∧ sector (driver.write d lba n buf).2 = overlay (sector d)
    lba.toNat n (buf.page 512)
  /-- The cache is flushed. -/
  flush : ∀ d, (driver.flushCache d).1 = 0 ∧ sector (driver.flushCache d).2 = sector d

/-- The host with the plugin, over a driver. What is no callback is answered by `rest`. -/
def atadHost (driver : AtaDriver δ) (h : AtaHandle) (rest : (e : Call) → Resp e) : Env Call Resp δ
  | d, .pread _ _ count offset => atadPread driver.toDriver d count offset 0
  | d, .pwrite _ _ buf count offset => atadPwrite driver.toDriver d buf count offset 0
  | d, .flush .. => atadFlush driver d 0
  | d, .getSize .. => (atadGetSize h, d)
  | d, .blockSize .. => (atadBlockSize, d)
  | d, e => (rest e, d)

section Host

variable {driver : AtaDriver δ} {sector : δ → ℕ → Bytes} {sectors : UInt32} {h : AtaHandle}
  {rest : (e : Call) → Resp e}

theorem toUInt32_of_le {offset : UInt64} {n : ℕ} (hle : offset.toNat + n ≤ sectors.toNat) :
    offset.toUInt32.toNat = offset.toNat := by
  have hlt := sectors.toNat_lt
  rw [UInt64.toNat_toUInt32]
  exact Nat.mod_eq_of_lt (by omega)

/-- The plugin reads and writes sectors. -/
theorem atadHost_isPaged (hd : IsDrive driver sector sectors) (h : AtaHandle)
    (rest : (e : Call) → Resp e) (p : Plugin) (handle : Handle) :
    IsPaged ((atadHost driver h rest).within (fun _ => True) fun _ _ _ => trivial) p handle 512
      (fun d => sector d.1) sectors.toNat where
  pos := by decide
  length d := hd.length d.1
  pread d count offset hle := by
    have hsector := toUInt32_of_le hle
    rw [← hsector] at hle ⊢
    exact hd.read d.1 _ _ hle
  pwrite d buf count offset hle hbuf := by
    have hsector := toUInt32_of_le hle
    rw [← hsector] at hle ⊢
    exact hd.write d.1 _ _ _ hle hbuf
  flush d := hd.flush d.1
  note _ _ := rfl
  uninit _ _ := rfl

end Host

/-! ### The whole server -/

/-- The drive, as an export. -/
def driveExport {driver : AtaDriver δ} {sector : δ → ℕ → Bytes} {sectors : UInt32}
    (hd : IsDrive driver sector sectors) (h : AtaHandle) (rest : (e : Call) → Resp e) (p : Plugin)
    (handle : Handle) : Export δ where
  host := atadHost driver h rest
  inv := fun _ => True
  keeps := fun _ _ _ => trivial
  content := fun d => pagesOf (sector d) sectors.toNat
  plugin := p
  handle := handle
  blocksize := 512
  device := (atadHost_isPaged hd h rest p handle).isBlockDevice

/-- **A hard disk is served over a socket as an ideal disk**, from the constructor on: a drive of up
to `2 ^ 32 - 1` sectors, although the plugin cuts offsets to 32 bits. The replies are those of a
disk with the bytes of the drive to the messages that are no DISC, however the socket cuts them, and
the drive has the bytes of that disk afterwards. -/
theorem drive_export_served {driver : AtaDriver δ} {sector : δ → ℕ → Bytes} {info : AtaDevinfo}
    (hd : IsDrive driver sector info.totalSectors) {device : Fin MAX_DEVICES} {c c' : Context}
    {r : ℤ} {h : AtaHandle} (hctor : atadCtor (some info) device c = (r, some h, c'))
    {rest : (e : Call) → Resp e} {i : ContextIdx} (hdefault : rest .getDefaultexport = some i)
    {p : Plugin} {W : ℕ} {ν : Type} {net : Env Tcp.TcpCall (Tcp.TcpResp W) ν} {input : ν → Bytes}
    {sock : ℤ} {cfg : Config} {s : Shared} {ms : List Msg} {tfuel : ℕ} {addr : Obj → ℕ}
    (hW : 14 ≤ W) (hc : Tcp.Connected net sock input) (htfuel : 4096 < tfuel)
    (hsock : s.ctx.sock = sock) (hs : Exported cfg s.ctx p atadBlockSize.1 (atadGetSize h))
    (y : Stack ν δ) (hin : input y.net = stream ms)
    (hms : ∀ m ∈ ms, m.Legal 512 (info.totalSectors.toNat * 512)) : ∃ N, ∀ fuel ≥ N,
      let z :=
        (nbdSynchronousClientThreadCb cfg fuel sock).run
        (sockets net tfuel addr (atadHost driver h rest)) s y
      let before := pagesOf (sector y.host) info.totalSectors.toNat
      z.out = .ret (-1) ∧ z.env.output = y.output ++ replies before (served ms) ∧
        pagesOf (sector z.env.host) info.totalSectors.toNat = contentAfter before (served ms) ∧
        input z.env.net = [] ∧ z.mem = s.told ms := by
  refine ⟨loopFuel cfg + (input y.net).length + 1, fun fuel hfuel => ?_⟩
  obtain ⟨_, ⟨⟩, hsize⟩ := atadCtor_size hctor
  have hlen : (pagesOf (sector y.host) info.totalSectors.toNat).length = info.totalSectors.toNat *
      512 :=
    length_pagesOf (hd.length y.host) _
  have hexports : Exports cfg s.ctx p (pagesOf (sector y.host) info.totalSectors.toNat).length := by
    refine ⟨?_, ?_, hs.plugin, hs.pwrite, hs.flush, hs.writable, ?_⟩
    · rw [hs.blocksize]
      decide
    · rw [hs.blocksize]
      exact hs.fits
    · rw [hs.size, hsize, hlen]
      exact Nat.cast_mul _ _
  rw [← hlen] at hms
  have hx : DefaultExport cfg s.ctx (driveExport hd h rest p s.ctx.handle) y.host :=
    ⟨hs.preinit, rfl, hs.blocksize, hexports, ⟨i, Prod.ext hdefault rfl⟩, trivial⟩
  exact (driveExport hd h rest p s.ctx.handle).served hW hc htfuel hsock hx hms hin
    (Nat.lt_of_succ_le hfuel)

namespace Sample

/-- A drive of eight sectors. -/
def drive : AtaDriver (ℕ → Vector UInt8 512) where
  read d lba n := (⟨0, (stretch (fun i => (d i).toList) lba.toNat n).flatten⟩, d)
  write d lba n buf := (0, fun i =>
    if h : lba.toNat ≤ i ∧ i < lba.toNat + n ∧ (buf.page 512 (i - lba.toNat)).length = 512 then
      ⟨(buf.page 512 (i - lba.toNat)).toArray, h.2.2⟩
    else d i)
  flushCache d := (0, d)

theorem drive_isDrive (sectors : UInt32) : IsDrive drive (fun d i => (d i).toList) sectors where
  length d i := Vector.length_toList
  read d lba n _ := ⟨rfl, rfl⟩
  write d lba n buf _ hbuf := by
    refine ⟨rfl, funext fun i => ?_⟩
    have hpage (hi : lba.toNat ≤ i ∧ i < lba.toNat + n) :
        (buf.page 512 (i - lba.toNat)).length = 512 := by
      have hlt : (i - lba.toNat + 1) * 512 ≤ n * 512 := Nat.mul_le_mul_right 512 (by omega)
      rw [Nat.succ_mul] at hlt
      exact List.length_slice (Nat.le_trans hlt hbuf)
    unfold overlay drive
    by_cases hi : lba.toNat ≤ i ∧ i < lba.toNat + n
    · rw [if_pos hi]
      dsimp only
      rw [dif_pos ⟨hi.1, hi.2, hpage hi⟩]
      rfl
    · rw [if_neg hi]
      dsimp only
      rw [dif_neg fun h => hi ⟨h.1, h.2.1⟩]
  flush d := ⟨rfl, rfl⟩

/-- A server whose buffer has three sectors. -/
def threeSectors : Config := ⟨1536, 7, by decide, by decide⟩

/-- A server whose default export is the drive. -/
def server : Shared :=
  ⟨{ LwNBD.Sample.ctx with
      preinit := 1
      minimumBlockSize := 512
      exportsize := .ofNat (8 : UInt32).toNat * 512 }, .empty⟩

/-- A client that writes two sectors, and reads them and two others. -/
theorem drive_export_served_eight :
    let ms := [LwNBD.Sample.zeroes 1024 1024, LwNBD.Sample.parting, LwNBD.Sample.reading 512 2048]
    let x : Stack Bytes (ℕ → Vector UInt8 512) :=
      ⟨stream ms, fun _ => 0, [], fun _ => .replicate 512 7⟩
    ∃ N, ∀ fuel ≥ N,
      let z := (nbdSynchronousClientThreadCb threeSectors fuel 5).run
        (sockets LwNBD.Sample.dribble 4097 (fun _ => 0)
        (atadHost drive ⟨1, .ofNat (8 : UInt32).toNat * 512⟩ LwNBD.Sample.others)) server x
      let before := pagesOf (fun i => (x.host i).toList) 8
      z.out = .ret (-1) ∧ z.env.output = [] ++ replies before (served ms) ∧
        pagesOf (fun i => (z.env.host i).toList) 8 = contentAfter before (served ms) ∧
        z.env.net = [] ∧ z.mem = server.told ms := by
  intro ms x
  have hlegal : ∀ m ∈ ms, m.Legal 512 ((8 : UInt32).toNat * 512) := by
    intro m hm
    simp only [ms, List.mem_cons, List.not_mem_nil, or_false] at hm
    rcases hm with rfl | rfl | rfl
    · exact fun _ => ⟨.inr (.inl rfl), by decide, by decide, by decide⟩
    · exact fun h => absurd h (by decide)
    · exact fun _ => ⟨.inl rfl, by decide, by decide, by decide⟩
  have hexported : Exported threeSectors server.ctx LwNBD.Sample.plugin atadBlockSize.1
      (atadGetSize ⟨1, .ofNat (8 : UInt32).toNat * 512⟩) :=
    ⟨by decide, rfl, by decide, rfl, rfl, rfl, by decide, rfl⟩
  have hctor : atadCtor (some ⟨1, 8⟩) 1 .zero = (0, some ⟨1, .ofNat (8 : UInt32).toNat * 512⟩, _) :=
    rfl
  have hdefault : LwNBD.Sample.others .getDefaultexport = some LwNBD.Sample.slot := rfl
  have hdrive : IsDrive drive (fun d i => (d i).toList) (AtaDevinfo.mk 1 8).totalSectors :=
    drive_isDrive 8
  exact drive_export_served hdrive hctor hdefault (by decide) (LwNBD.Sample.connected_dribble 5)
    (by decide) rfl hexported x rfl hlegal

end Sample

end LwNBD.Atad
