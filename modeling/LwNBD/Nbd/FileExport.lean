import LwNBD.Nbd.Served
import LwNBD.Plugins.Contents
import LwNBD.Plugins.Descriptors

/-!
# A file that is served

The whole of a server that serves a file: a session, over `tcp_recv_block` and a socket on the one
side, and over the file plugin and the operating system on the other. Both deliver what they have:
the socket may cut the client's bytes anywhere, and the operating system may transfer less than it
is asked for, each time.

## The model

* `Serviceable`, `Volume` — an operating system with a file that is in order: it transfers something
  whenever there is something to transfer.
* `fileHost` — the host of a session whose callbacks are those of the file plugin; `Volume.toExport`
  — the export.

## What is proved

* `wp_filePread_whole`, `wp_filePwrite_whole` — with such an operating system no transfer stops
  short.
* `fileHost_isBlockDevice` — the file plugin is a block device, whose blocks are bytes.
* `file_export_served` — over a socket, a session serves the file as an ideal disk.
-/

namespace LwNBD.FilePlugin

open Resumption

/-! ### An operating system in order -/

variable {σ : Type}

/-- A file of `size` bytes that is in order, at a descriptor: in these bytes, every transfer
transfers something. -/
structure Serviceable (env : Env FileCall FileResp σ) (content : σ → ℕ → UInt8) (size : ℕ)
    (fd : ℤ) : Prop where
  /-- It is a file. -/
  file : IsFile env fd content
  /-- `pread` reads something. -/
  pread : ∀ w count (offset : ℤ), 0 < count → 0 ≤ offset → offset < size →
    ∃ data, (env w (.pread fd count offset)).1 = some data ∧ data ≠ []
  /-- `pwrite` writes something. -/
  pwrite : ∀ w data (offset : ℤ), data ≠ [] → 0 ≤ offset → offset + data.length ≤ size →
    ∃ r, (env w (.pwrite fd data offset)).1 = some r ∧ r ≠ 0
  /-- `fdatasync` succeeds. -/
  fdatasync : ∀ w, (env w (.fdatasync fd)).1 = (0 : ℤ)
  /-- It leaves the file. -/
  fdatasync_keeps : ∀ w, content (env w (.fdatasync fd)).2 = content w

/-- An operating system with a file: whichever descriptor of it is opened is in order. -/
structure Volume (σ : Type) where
  /-- What it answers. -/
  env : Env FileCall FileResp σ
  /-- The bytes of the file. -/
  content : σ → ℕ → UInt8
  /-- Its size. -/
  size : ℕ
  /-- The size is an `off_t`. -/
  size_lt : size < 2 ^ 63
  /-- `open` opens the file. -/
  opens : ∀ w filename flags, Serviceable env content size (env w (.openFile filename flags)).1

/-- A descriptor of the file. -/
abbrev Volume.Opened (v : Volume σ) (fd : ℤ) : Prop := Serviceable v.env v.content v.size fd

/-- The bytes of the file. -/
def Volume.bytes (v : Volume σ) (w : σ) : Bytes := stretch (v.content w) 0 v.size

section Whole

variable {v : Volume σ} {m : FileMem} {h : FileIdx} {fuel buf : ℕ}
  {count : UInt32} {offset : UInt64}

theorem offT_of_lt (hlt : offset.toNat < 2 ^ 63) : offT offset = offset.toNat := if_pos hlt

theorem Transfer.Done.inFile {x₀ x : Transfer} {n : ℕ} (hd : x₀.Done n x) (hne : x.count ≠ 0)
    (hle : x₀.offset.toNat + x₀.count.toNat ≤ v.size) :
    0 < x.count.toNat ∧ x.offset.toNat + x.count.toNat ≤ v.size ∧ x.offset.toNat < 2 ^ 63 := by
  have hpos : 0 < x.count.toNat := Nat.pos_of_ne_zero fun h0 => hne (UInt32.toNat_inj.mp h0)
  have hcount := hd.count
  have hoffset := hd.offset
  have hsize := v.size_lt
  omega

theorem wp_sysPread_some (hv : v.Opened (m.fd h)) {x : Transfer} (hpos : 0 < x.count.toNat)
    (hle : x.offset.toNat + x.count.toNat ≤ v.size) (w : σ) :
    wp v.env (sysPread h x) (fun o m' w' _ =>
      v.content w' = v.content w ∧ ∃ r, o = .ret (some r) ∧ r ≠ 0 ∧ r ≤ x.count.toNat ∧
        m' = { m with bytes := overlay m.bytes x.buf r fun i => v.content w (x.offset.toNat + i) })
  m w := by
  have hsize := v.size_lt
  obtain ⟨data, hdata, hne⟩ := hv.pread w x.count.toNat (offT x.offset) hpos
    (by rw [offT_of_lt (by omega)]; omega) (by rw [offT_of_lt (by omega)]; omega)
  have hkeeps := hv.file.pread_keeps w x.count.toNat (offT x.offset)
  obtain ⟨-, hle', heq⟩ := hv.file.pread w _ _ data hdata
  rw [offT_of_lt (by omega), Int.toNat_natCast] at heq
  unfold sysPread
  rw [wp_bind, wp_read, Post.seq_ret, wp_bind, wp_perform, Post.seq_ret, hdata]
  dsimp only
  rw [wp_bind, wp_modify, Post.seq_ret, wp_pure]
  refine ⟨hkeeps, data.length, rfl, fun h0 => hne (List.eq_nil_of_length_eq_zero h0), hle', ?_⟩
  congr 1
  refine overlay_congr (fun _ _ => rfl) fun i hi => ?_
  rw [heq]
  exact getD_stretch hi

theorem wp_sysPwrite_some (hv : v.Opened (m.fd h)) {x : Transfer} (hpos : 0 < x.count.toNat)
    (hle : x.offset.toNat + x.count.toNat ≤ v.size) (w : σ) :
    wp v.env (sysPwrite h x) (fun o m' w' _ =>
      m' = m ∧ ∃ r, o = .ret (some r) ∧ r ≠ 0 ∧ r ≤ x.count.toNat ∧
        v.content w' = overlay (v.content w) x.offset.toNat r fun i => m.bytes (x.buf + i))
        m w := by
  have hsize := v.size_lt
  have hdata : (stretch m.bytes x.buf x.count.toNat).length = x.count.toNat := length_stretch
  obtain ⟨r, hr, hne⟩ := hv.pwrite w (stretch m.bytes x.buf x.count.toNat) (offT x.offset)
    (fun hnil => by rw [hnil] at hdata; exact absurd hdata (Nat.ne_of_lt hpos))
    (by rw [offT_of_lt (by omega)]; omega) (by rw [offT_of_lt (by omega), hdata]; omega)
  obtain ⟨-, hle', heq⟩ := hv.file.pwrite w _ _ r hr
  rw [show (offT x.offset).toNat = x.offset.toNat by
    rw [offT_of_lt (by omega), Int.toNat_natCast]] at heq
  rw [hdata] at hle'
  unfold sysPwrite
  rw [wp_bind, wp_read, Post.seq_ret, wp_perform, hr]
  refine ⟨rfl, r, rfl, hne, hle', heq.trans ?_⟩
  exact overlay_congr (fun _ _ => rfl) fun i hi => getD_stretch (Nat.lt_of_lt_of_le hi hle')

/-- The range was read. -/
def Volume.HasRead (v : Volume σ) (m : FileMem) (w : σ) (buf : ℕ)
    (count : UInt32) (offset : UInt64) : Post FileMem FileCall FileResp σ ℤ :=
  fun o m' w' _ => o = .ret 0 ∧ v.content w' = v.content w ∧
  m' = { m with bytes := overlay m.bytes buf count.toNat fun i => v.content w (offset.toNat + i) }

/-- The range was written. -/
def Volume.HasWritten (v : Volume σ) (m : FileMem) (w : σ) (buf : ℕ)
    (count : UInt32) (offset : UInt64) : Post FileMem FileCall FileResp σ ℤ :=
  fun o m' w' _ => o = .ret 0 ∧ m' = m ∧
  v.content w' = overlay (v.content w) offset.toNat count.toNat fun i => m.bytes (buf + i)

variable (buf) in
/-- `file_pread` reads the range if it lies in the file. -/
theorem wp_filePread_whole (hv : v.Opened (m.fd h)) (hle : offset.toNat + count.toNat ≤ v.size)
    (hfuel : count.toNat < fuel) (flags : UInt32) (w : σ) :
    wp v.env (filePread fuel h buf count offset flags) (v.HasRead m w buf count offset) m w := by
  rw [filePread, ← Post.after_nil (v.HasRead m w buf count offset)]
  refine wp_loop_total v.env (fun x m' w' _ => v.content w' = v.content w ∧
      ∃ n, Transfer.Done ⟨buf, count, offset⟩ n x ∧
        m' = { m with bytes := overlay m.bytes buf n fun i => v.content w (offset.toNat + i) })
    (fun x _ _ => x.count.toNat) ?_ fuel _ m w [] hfuel ⟨rfl, 0, .start _, by rw [overlay_zero]⟩
  rintro x m' w' t ⟨hw, n, hdone, hm⟩
  have hfd : m'.fd h = m.fd h := by rw [hm]; rfl
  have hcount := hdone.count
  by_cases hzero : x.count = 0
  · rw [preadRound, if_pos hzero, wp_pure, Post.round_done]
    rw [hzero] at hcount
    have hn : n = count.toNat := Nat.le_antisymm hdone.le (Nat.sub_eq_zero_iff_le.mp hcount.symm)
    exact ⟨rfl, hw, by rw [hm, hn]⟩
  · obtain ⟨hpos, hin, hlt⟩ := hdone.inFile hzero hle
    rw [preadRound, if_neg hzero, wp_bind]
    refine wp_mono _ ?_ (wp_sysPread_some (hfd ▸ hv) hpos hin w')
    rintro o m'' w'' t' ⟨hw'', r, rfl, hr, hrle, rfl⟩
    rw [Post.seq_ret]
    dsimp only
    rw [if_neg hr, wp_pure, Post.after_apply, Post.round_next]
    refine ⟨⟨hw''.trans hw, n + r, hdone.advance hrle hlt, ?_⟩, ?_⟩
    · rw [hm, ← overlay_overlay, hdone.buf, hw, hdone.offset]
      simp only [Nat.add_assoc]
    · rw [Transfer.advance_count hrle]
      omega

variable (buf) in
/-- `file_pwrite` writes the range if it lies in the file. -/
theorem wp_filePwrite_whole (hv : v.Opened (m.fd h)) (hle : offset.toNat + count.toNat ≤ v.size)
    (hfuel : count.toNat < fuel) (flags : UInt32) (w : σ) :
    wp v.env (filePwrite fuel h buf count offset flags) (v.HasWritten m w buf count offset)
    m w := by
  rw [filePwrite, ← Post.after_nil (v.HasWritten m w buf count offset)]
  refine wp_loop_total v.env (fun x m' w' _ => m' = m ∧
      ∃ n, Transfer.Done ⟨buf, count, offset⟩ n x ∧
      v.content w' = overlay (v.content w) offset.toNat n fun i => m.bytes (buf + i))
    (fun x _ _ => x.count.toNat) ?_ fuel _ m w [] hfuel ⟨rfl, 0, .start _, by rw [overlay_zero]⟩
  rintro x m' w' t ⟨rfl, n, hdone, hw⟩
  have hcount := hdone.count
  by_cases hzero : x.count = 0
  · rw [pwriteRound, if_pos hzero, wp_pure, Post.round_done]
    rw [hzero] at hcount
    have hn : n = count.toNat := Nat.le_antisymm hdone.le (Nat.sub_eq_zero_iff_le.mp hcount.symm)
    exact ⟨rfl, rfl, by rw [hw, hn]⟩
  · obtain ⟨hpos, hin, hlt⟩ := hdone.inFile hzero hle
    rw [pwriteRound, if_neg hzero, wp_bind]
    refine wp_mono _ ?_ (wp_sysPwrite_some hv hpos hin w')
    rintro o m'' w'' t' ⟨rfl, r, rfl, hr, hrle, hw''⟩
    rw [Post.seq_ret]
    dsimp only
    rw [wp_pure, Post.after_apply, Post.round_next]
    refine ⟨⟨rfl, n + r, hdone.advance hrle hlt, ?_⟩, ?_⟩
    · rw [hw'', hw, ← overlay_overlay, hdone.buf, hdone.offset]
      simp only [Nat.add_assoc]
    · rw [Transfer.advance_count hrle]
      omega

end Whole

/-! ### The host -/

/-- The callbacks of the plugin, for the handle that is exported; `buf` is where `nbd_buffer` is. -/
def fileCallback (fuel : ℕ) (h : FileIdx) (buf : ℕ) : Call → FileProg ℤ
  | .pread _ _ count offset => filePread fuel h buf count offset 0
  | .pwrite _ _ data count offset => do
    Prog.modify fun m => { m with bytes := overlay m.bytes buf data.length (data.getD · 0) }
    filePwrite fuel h buf count offset 0
  | .flush .. => fileFlush h 0
  | .getSize .. => fileGetSize h
  | _ => pure 0

/-- What a callback tells the server. What is no callback is answered by `rest`. -/
def fileAnswer (buf : ℕ) (rest : (e : Call) → Resp e) :
    (e : Call) → Result FileMem FileCall FileResp σ ℤ → Resp e
  | .pread .., x => ⟨status x.out, stretch x.mem.bytes buf (bytesRead x.trace).length⟩
  | .pwrite .., x | .flush .., x => status x.out
  | .getSize .., x => Int64.ofInt (status x.out)
  | e, _ => rest e

/-- The host with the file plugin, over an operating system. -/
def fileHost (env : Env FileCall FileResp σ) (fuel : ℕ) (h : FileIdx) (buf : ℕ)
    (rest : (e : Call) → Resp e) : Env Call Resp (FileMem × σ) :=
  answered env (fileCallback fuel h buf) (fileAnswer buf rest)

section Host

variable {v : Volume σ} {m : FileMem} {h : FileIdx} {fuel buf : ℕ} {rest : (e : Call) → Resp e}

/-- The handles are as they were. -/
abbrev SameSlots (m m' : FileMem) : Prop := m'.slots = m.slots

theorem sameSlots_refl (m : FileMem) : SameSlots m m := rfl

theorem sameSlots_trans (m m' m'' : FileMem) (h : SameSlots m m') (h' : SameSlots m' m'') :
    SameSlots m m'' := h'.trans h

theorem sysPread_keeps (x : Transfer) (m : FileMem) :
    (sysPread h x).Keeps SameSlots (fun _ => True) m := by
  refine .read_bind (.bind sameSlots_trans (.perform sameSlots_refl _) fun r m' _ _ => ?_)
  cases r with
  | none => exact .pure sameSlots_refl trivial
  | some data =>
    exact .bind sameSlots_trans (.modify rfl) fun _ _ _ _ => .pure sameSlots_refl trivial

theorem filePread_keeps (count : UInt32) (offset : UInt64) (flags : UInt32) (m : FileMem) :
    (filePread fuel h buf count offset flags).Keeps SameSlots (fun _ => True) m := by
  refine .loop sameSlots_refl sameSlots_trans (fun _ => True) (fun x m _ => ?_) fuel trivial
  refine .ite (fun _ => .pure sameSlots_refl trivial) fun _ => ?_
  refine .bind sameSlots_trans (sysPread_keeps x m) fun r m' _ _ => ?_
  cases r with
  | none => exact .pure sameSlots_refl trivial
  | some r =>
    exact .ite (fun _ => .pure sameSlots_refl trivial) fun _ => .pure sameSlots_refl trivial

theorem filePwrite_keeps (count : UInt32) (offset : UInt64) (flags : UInt32) (m : FileMem) :
    (filePwrite fuel h buf count offset flags).Keeps SameSlots (fun _ => True) m := by
  refine .loop sameSlots_refl sameSlots_trans (fun _ => True) (fun x m _ => ?_) fuel trivial
  refine .ite (fun _ => .pure sameSlots_refl trivial) fun _ => ?_
  refine Prog.Keeps.bind sameSlots_trans (Prog.Keeps.read_bind (.perform sameSlots_refl _))
    fun r m' _ _ => ?_
  cases r with
  | none => exact .pure sameSlots_refl trivial
  | some r => exact .pure sameSlots_refl trivial

/-- A descriptor of the file is one after every callback; `file_get_size` opens another. -/
theorem fileHost_opened (v : Volume σ) (fuel : ℕ) (h : FileIdx) (buf : ℕ)
    (rest : (e : Call) → Resp e) (x : FileMem × σ) (e : Call) (hx : v.Opened (x.1.fd h)) :
    v.Opened ((fileHost v.env fuel h buf rest x e).2.1.fd h) := by
  have hsame {m : FileMem} (hm : SameSlots x.1 m) : v.Opened (m.fd h) := by
    rw [FileMem.fd, hm]
    exact hx
  obtain ⟨m, w⟩ := x
  cases e with
  | pread p handle count offset => exact hsame (filePread_keeps count offset 0 m σ v.env w).1
  | pwrite p handle data count offset =>
    exact hsame (Prog.Keeps.bind sameSlots_trans (.modify rfl)
      (fun _ m' _ _ => filePwrite_keeps count offset 0 m') σ v.env w).1
  | getSize p handle =>
    have hopened :
        v.Opened (((m.slots.handles.set h
        ⟨(v.env w (.openFile (m.slots.handles.get h).filename (O_RDWR + O_CLOEXEC))).1,
        O_RDWR + O_CLOEXEC, (m.slots.handles.get h).filename⟩ h.isLt).get h).fd) := by
      rw [FileMem.get_set, if_pos rfl]
      exact v.opens w _ _
    exact hopened
  | _ => exact hx

/-- The file plugin is a block device, whose blocks are bytes, while the descriptor is one of the
file. -/
theorem fileHost_isBlockDevice (hfuel : 2 ^ 32 ≤ fuel) (p : Plugin) (handle : Handle) :
    IsBlockDevice ((fileHost v.env fuel h buf rest).within _ (fileHost_opened v fuel h buf rest)) p
    handle 1
      fun x => v.bytes x.1.2 where
  pread := by
    rintro ⟨⟨m, w⟩, hx⟩ count offset r b hr hle
    have hlen : (v.bytes w).length = v.size := length_stretch
    have hone : (1 : UInt32).toNat = 1 := rfl
    rw [hone, Nat.mul_one] at hle ⊢
    rw [hlen] at hle
    have hlt : count.toNat < fuel := Nat.lt_of_lt_of_le count.toNat_lt hfuel
    obtain ⟨ho, hw, hm⟩ := wp_filePread_whole buf hx hle hlt 0 w
    have hread := wp_filePread_length hx.file fuel buf count offset 0 w ho
    cases hr
    refine ⟨congrArg status ho, ?_, congrArg (stretch · 0 v.size) hw⟩
    change stretch ((filePread fuel h buf count offset 0).run v.env m w).mem.bytes buf
      (bytesRead ((filePread fuel h buf count offset 0).run v.env m w).trace).length = _
    rw [hread, hm, Nat.mul_one, stretch_overlay, Volume.bytes, slice_stretch hle, stretch, stretch]
    simp only [Nat.zero_add]
  pwrite := by
    rintro ⟨⟨m, w⟩, hx⟩ data count offset r b hr hle hdata
    have hlen : (v.bytes w).length = v.size := length_stretch
    have hone : (1 : UInt32).toNat = 1 := rfl
    rw [hone, Nat.mul_one] at hle hdata ⊢
    rw [hlen] at hle
    have hlt : count.toNat < fuel := Nat.lt_of_lt_of_le count.toNat_lt hfuel
    obtain ⟨ho, -, hw⟩ := wp_filePwrite_whole buf
      (m := { m with bytes := overlay m.bytes buf data.length (data.getD · 0) }) hx hle hlt 0 w
    cases hr
    refine ⟨congrArg status ho, ?_⟩
    have hbytes : stretch (fun i => overlay m.bytes buf data.length (data.getD · 0) (buf + i)) 0
        count.toNat = data.take count.toNat := by
      have hall : stretch (overlay m.bytes buf data.length (data.getD · 0)) buf data.length =
          data := by
        rw [stretch_overlay, stretch_getD (Nat.le_of_eq (Nat.zero_add _)),
          List.drop_zero, List.take_length]
      rw [← congrArg (List.take count.toNat) hall, take_stretch hdata, stretch, stretch]
      simp only [Nat.zero_add]
    change stretch (v.content ((filePwrite fuel h buf count offset 0).run v.env _ w).env) 0 v.size =
      _
    rw [hw, Nat.mul_one, stretch_overlay_whole hle, hbytes]
    rfl
  flush := by
    rintro ⟨⟨m, w⟩, hx⟩ r b hr
    cases hr
    have hsync : (v.env w (.fdatasync (m.fd h))).1 = (0 : ℤ) := hx.fdatasync w
    refine ⟨?_, congrArg (stretch · 0 v.size) (hx.fdatasync_keeps w)⟩
    change (if (v.env w (.fdatasync (m.fd h))).1 = (-1 : ℤ) then (-1 : ℤ) else 0) = 0
    rw [hsync]
    rfl
  note _ _ := rfl
  uninit _ _ := rfl

end Host

/-! ### The whole server -/

/-- The file, as an export. -/
def Volume.toExport (v : Volume σ) (fuel : ℕ) (hfuel : 2 ^ 32 ≤ fuel) (h : FileIdx) (buf : ℕ)
    (rest : (e : Call) → Resp e) (p : Plugin) (handle : Handle) : Export (FileMem × σ) where
  host := fileHost v.env fuel h buf rest
  inv := fun x => v.Opened (x.1.fd h)
  keeps := fileHost_opened v fuel h buf rest
  content := fun x => v.bytes x.2
  plugin := p
  handle := handle
  blocksize := 1
  device := fileHost_isBlockDevice hfuel p handle

/-- **A file is served over a socket as an ideal disk.** However the socket cuts the bytes of a
client's messages, and however little the operating system transfers at a time, the replies are
those of a disk with the bytes of the file to the messages that are no DISC, and the file has the
bytes of that disk afterwards; the session ends when the client's bytes do. -/
theorem file_export_served (v : Volume σ) {ffuel : ℕ} (hffuel : 2 ^ 32 ≤ ffuel)
    (h : FileIdx) (buf : ℕ) (rest : (e : Call) → Resp e) (p : Plugin) {W : ℕ} {ν : Type}
    {net : Env Tcp.TcpCall (Tcp.TcpResp W) ν} {input : ν → Bytes} {sock : ℤ} {cfg : Config}
    {s : Shared} {ms : List Msg} {tfuel : ℕ} {addr : Obj → ℕ} (hW : 14 ≤ W)
    (hc : Tcp.Connected net sock input) (htfuel : 4096 < tfuel) (hsock : s.ctx.sock = sock)
    (y : Stack ν (FileMem × σ)) (hin : input y.net = stream ms)
    (hx : DefaultExport cfg s.ctx (v.toExport ffuel hffuel h buf rest p s.ctx.handle) y.host)
    (hms : ∀ m ∈ ms, m.Legal 1 v.size) : ∃ N, ∀ fuel ≥ N,
      let z := (nbdSynchronousClientThreadCb cfg fuel sock).run
        (sockets net tfuel addr (fileHost v.env ffuel h buf rest)) s y
      z.out = .ret (-1) ∧ z.env.output = y.output ++ replies (v.bytes y.host.2) (served ms) ∧
        v.bytes z.env.host.2 = contentAfter (v.bytes y.host.2) (served ms) ∧ input z.env.net = [] ∧
        z.mem = s.told ms := by
  refine ⟨loopFuel cfg + (input y.net).length + 1, fun fuel hfuel => ?_⟩
  have hlen : (v.bytes y.host.2).length = v.size := length_stretch
  rw [← hlen] at hms
  exact (v.toExport ffuel hffuel h buf rest p s.ctx.handle).served hW hc htfuel hsock hx hms hin
    (Nat.lt_of_succ_le hfuel)

namespace Sample

theorem serviceable_bytewise (size : ℕ) (fd : ℤ) : Serviceable bytewise id size fd where
  file := isFile_bytewise fd
  pread := by
    intro w count offset hpos hle _
    refine ⟨stretch w offset.toNat (min 1 count), by rw [bytewise, if_neg (Int.not_lt.mpr hle)],
                                                       fun hnil => ?_⟩
    have hlen := congrArg List.length hnil
    rw [length_stretch, List.length_nil] at hlen
    omega
  pwrite := by
    intro w data offset hne hle _
    have hpos := List.length_pos_iff.mpr hne
    exact ⟨min 1 data.length, by rw [bytewise, if_neg (Int.not_lt.mpr hle)], by omega⟩
  fdatasync := fun _ => rfl
  fdatasync_keeps := fun _ => rfl

/-- A file of eight bytes, of which a byte is transferred at a time. -/
def slow : Volume (ℕ → UInt8) := ⟨bytewise, id, 8, by decide, fun _ _ _ => serviceable_bytewise 8 _⟩

/-- A server whose default export is the file. -/
def server : Shared := { LwNBD.Sample.mem with ctx := { LwNBD.Sample.ctx with preinit := 1 } }

/-- A client that writes two bytes, leaves and reads the file, over a network that delivers a byte
at a time. -/
theorem file_export_served_slowly :
    let ms := [LwNBD.Sample.zeroes 2 2, LwNBD.Sample.parting, LwNBD.Sample.reading 0 8]
    let x : Stack Bytes (FileMem × (ℕ → UInt8)) := ⟨stream ms, fun _ => 0, [], (opened, fun _ => 9)⟩
    ∃ N, ∀ fuel ≥ N,
      let z := (nbdSynchronousClientThreadCb LwNBD.Sample.cfg fuel 5).run
        (sockets LwNBD.Sample.dribble 4097 (fun _ => 0)
        (fileHost bytewise (2 ^ 32) first 0 LwNBD.Sample.others)) server x
      z.out = .ret (-1) ∧ z.env.output = [] ++ replies [9, 9, 9, 9, 9, 9, 9, 9] (served ms) ∧
        slow.bytes z.env.host.2 = contentAfter [9, 9, 9, 9, 9, 9, 9, 9] (served ms) ∧
        z.env.net = [] ∧ z.mem = server.told ms := by
  intro ms x
  have hlegal : ∀ m ∈ ms, m.Legal 1 slow.size := by
    intro m hm
    simp only [ms, List.mem_cons, List.not_mem_nil, or_false] at hm
    rcases hm with rfl | rfl | rfl
    · exact fun _ => ⟨.inr (.inl rfl), by decide, by decide, by decide⟩
    · exact fun h => absurd h (by decide)
    · exact fun _ => ⟨.inl rfl, by decide, by decide, by decide⟩
  have hdefault : DefaultExport LwNBD.Sample.cfg server.ctx
      (slow.toExport (2 ^ 32) (Nat.le_refl _) first 0 LwNBD.Sample.others LwNBD.Sample.plugin
      server.ctx.handle) x.host :=
    ⟨by decide, rfl, rfl, ⟨by decide, by decide, rfl, rfl, rfl, by decide, by decide⟩, ⟨_, rfl⟩,
      serviceable_bytewise 8 _⟩
  exact file_export_served slow (Nat.le_refl _) first 0 LwNBD.Sample.others
    LwNBD.Sample.plugin (by decide) (LwNBD.Sample.connected_dribble 5) (by decide)
    rfl x rfl hdefault hlegal

end Sample

end LwNBD.FilePlugin
