import LwNBD.Data.Overlay
import LwNBD.Plugins.Instances
import LwNBD.Resumption.Rules

/-!
# The file plugin

`src/plugins/file/file.c`: an export is a file, and a handle has a descriptor of it. The operating
system may transfer less than it is asked for, so `file_pread` and `file_pwrite` ask until all was
transferred. Both loops end when a call fails; that of `file_pread` also ends when nothing is
transferred.

## The model

* `FileCall`, `FileMem` — the calls of the operating system, and the memory: the handles, and that
  of the caller.
* `filePread`, `filePwrite`, `fileFlush`, `fileOpen`, `fileClose`, `fileGetSize` — the callbacks.
  `file_ctor` is in `LwNBD.Plugins.Instances`. `ssize_t` and `off_t` have 64 bits.
* `IsFile` — what is known of the operating system: it transfers no more than it is asked for, where
  it is asked to, or fails.

## What is proved

* `wp_filePread`, `wp_filePwrite` — what they leave when they are done, and when they are not.
* `short_transfers_completed` — both.
-/

namespace LwNBD.FilePlugin

open Resumption

/-! ### The callbacks -/

/-- A call of the operating system. -/
inductive FileCall where
  /-- `open`. -/
  | openFile (filename : Bytes) (flags : ℤ)
  /-- `close`. -/
  | closeFile (fd : ℤ)
  /-- `fstat`. -/
  | fstat (fd : ℤ)
  /-- `fdatasync`. -/
  | fdatasync (fd : ℤ)
  /-- `pread`, of `count` bytes. -/
  | pread (fd : ℤ) (count : ℕ) (offset : ℤ)
  /-- `pwrite`. -/
  | pwrite (fd : ℤ) (data : Bytes) (offset : ℤ)
  deriving DecidableEq

/-- What it returns: `none` is `-1`, where there is more than a number otherwise. -/
abbrev FileResp : FileCall → Type
  | .openFile .. | .closeFile _ | .fdatasync _ => ℤ
  | .fstat _ => Option ℤ
  | .pread .. => Option Bytes
  | .pwrite .. => Option ℕ

/-- The memory. -/
structure FileMem where
  /-- `handles` and `handle_in_use`. -/
  slots : Slots FILE_DRIVER_MAX_DEVICES FileHandle
  /-- The memory of the caller. -/
  bytes : ℕ → UInt8

/-- A callback. -/
abbrev FileProg (α : Type) := Prog FileMem FileCall FileResp α

/-- A handle, as an index of `handles`. -/
abbrev FileIdx := Fin FILE_DRIVER_MAX_DEVICES

/-- `h->fd`. -/
def FileMem.fd (m : FileMem) (h : FileIdx) : ℤ := (m.slots.handles.get h).fd

/-- An offset as an `off_t`. -/
def offT (offset : UInt64) : ℤ :=
  if offset.toNat < 2 ^ 63 then offset.toNat else offset.toNat - 2 ^ 64

/-- What the loops count: `buf`, `count` and `offset`. -/
structure Transfer where
  /-- `buf`. -/
  buf : ℕ
  /-- `count`. -/
  count : UInt32
  /-- `offset`. -/
  offset : UInt64

/-- `r` bytes were transferred. -/
def Transfer.advance (x : Transfer) (r : ℕ) : Transfer :=
  ⟨x.buf + r, x.count - .ofNat r, x.offset + .ofNat r⟩

/-- `pread(h->fd, buf, count, offset)`. -/
def sysPread (h : FileIdx) (x : Transfer) : FileProg (Option ℕ) := do
  let m ← Prog.read
  match ← Prog.perform (FileCall.pread (m.fd h) x.count.toNat (offT x.offset)) with
  | none => pure none
  | some data => do
    Prog.modify fun m => { m with bytes := overlay m.bytes x.buf data.length (data.getD · 0) }
    pure (some data.length)

/-- `pwrite(h->fd, buf, count, offset)`. -/
def sysPwrite (h : FileIdx) (x : Transfer) : FileProg (Option ℕ) := do
  let m ← Prog.read
  Prog.perform (FileCall.pwrite (m.fd h) (stretch m.bytes x.buf x.count.toNat) (offT x.offset))

/-- A round of the loop of `file_pread`. -/
def preadRound (h : FileIdx) (x : Transfer) : FileProg (Ctl Transfer ℤ) :=
  if x.count = 0 then pure (.done 0)
  else do
    match ← sysPread h x with
    | none => pure (.done (-1))
    | some r => if r = 0 then pure (.done (-1)) else pure (.next (x.advance r))

/-- `file_pread`. -/
def filePread (fuel : ℕ) (h : FileIdx) (buf : ℕ) (count : UInt32) (offset : UInt64)
    (_flags : UInt32) : FileProg ℤ :=
  Prog.loop fuel (preadRound h) ⟨buf, count, offset⟩

/-- A round of the loop of `file_pwrite`. -/
def pwriteRound (h : FileIdx) (x : Transfer) : FileProg (Ctl Transfer ℤ) :=
  if x.count = 0 then pure (.done 0)
  else do
    match ← sysPwrite h x with
    | none => pure (.done (-1))
    | some r => pure (.next (x.advance r))

/-- `file_pwrite`. -/
def filePwrite (fuel : ℕ) (h : FileIdx) (buf : ℕ) (count : UInt32) (offset : UInt64)
    (_flags : UInt32) : FileProg ℤ :=
  Prog.loop fuel (pwriteRound h) ⟨buf, count, offset⟩

/-- `file_flush`. -/
def fileFlush (h : FileIdx) (_flags : UInt32) : FileProg ℤ := do
  let m ← Prog.read
  let r ← Prog.perform (FileCall.fdatasync (m.fd h))
  pure (if r = -1 then -1 else 0)

/-- `O_RDONLY`. -/
def O_RDONLY : ℤ := 0

/-- `O_RDWR`. -/
def O_RDWR : ℤ := 2

/-- `O_CLOEXEC`. -/
def O_CLOEXEC : ℤ := 0x80000

/-- `file_open`. -/
def fileOpen (h : FileIdx) (readonly : Bool) : FileProg Unit := do
  let flags := if readonly then O_RDONLY + O_CLOEXEC else O_RDWR + O_CLOEXEC
  let m ← Prog.read
  let fd ← Prog.perform (FileCall.openFile (m.slots.handles.get h).filename flags)
  Prog.modify fun m => { m with slots := { m.slots with
    handles := m.slots.handles.set h { m.slots.handles.get h with flags := flags, fd := fd } h.isLt
      } }

/-- `file_close`. -/
def fileClose (h : FileIdx) : FileProg Unit := do
  let m ← Prog.read
  let _ ← Prog.perform (FileCall.closeFile (m.fd h))

/-- `file_get_size`. -/
def fileGetSize (h : FileIdx) : FileProg ℤ := do
  fileOpen h false
  let m ← Prog.read
  let size? ← Prog.perform (FileCall.fstat (m.fd h))
  pure (size?.getD (-1))

/-- What a callback returned; one that does not return is none that succeeds. -/
def status : Outcome ℤ → ℤ
  | .ret r => r
  | .halt _ => -1

/-! ### The operating system -/

variable {σ : Type}

/-- What is known of the operating system: the bytes of the file are `content`, where what is past
its end is `0`. A transfer at an offset that is negative fails. -/
structure IsFile (env : Env FileCall FileResp σ) (fd : ℤ) (content : σ → ℕ → UInt8) : Prop where
  /-- `pread` returns bytes of the file, at most as many as it is asked for. -/
  pread : ∀ w count offset data, (env w (.pread fd count offset)).1 = some data →
    0 ≤ offset ∧ data.length ≤ count ∧ data = stretch (content w) offset.toNat data.length
  /-- It leaves the file. -/
  pread_keeps : ∀ w count offset, content (env w (.pread fd count offset)).2 = content w
  /-- `pwrite` writes some of the bytes, from the first on. -/
  pwrite : ∀ w data offset r, (env w (.pwrite fd data offset)).1 = some r →
    0 ≤ offset ∧ r ≤ data.length ∧
    content (env w (.pwrite fd data offset)).2 = overlay (content w) offset.toNat r (data.getD · 0)
  /-- If it fails it leaves the file. -/
  pwrite_fails : ∀ w data offset, (env w (.pwrite fd data offset)).1 = none →
    content (env w (.pwrite fd data offset)).2 = content w

/-- How many bytes a call transferred, none if it failed. -/
def transferred : Event FileCall FileResp → Option ℕ
  | ⟨.pread .., data⟩ => data.map List.length
  | ⟨.pwrite .., r⟩ => r
  | _ => none

/-! ### Counting -/

theorem Transfer.advance_count {x : Transfer} {r : ℕ} (h : r ≤ x.count.toNat) :
    (x.advance r).count.toNat = x.count.toNat - r := by
  have hlt := x.count.toNat_lt
  have hr : (UInt32.ofNat r).toNat = r := by
    rw [UInt32.toNat_ofNat']
    exact Nat.mod_eq_of_lt (by omega)
  rw [Transfer.advance, UInt32.toNat_sub_of_le _ _ (by rw [UInt32.le_iff_toNat_le, hr]; exact h),
    hr]

theorem Transfer.advance_offset {x : Transfer} {r : ℕ} (h : x.offset.toNat + r < 2 ^ 64) :
    (x.advance r).offset.toNat = x.offset.toNat + r := by
  have hr : (UInt64.ofNat r).toNat = r := by
    rw [UInt64.toNat_ofNat']
    exact Nat.mod_eq_of_lt (by omega)
  rw [Transfer.advance, UInt64.toNat_add, hr]
  exact Nat.mod_eq_of_lt h

/-- An offset that is not negative as an `off_t` is itself. -/
theorem offT_nonneg {offset : UInt64} (h : 0 ≤ offT offset) : (offT offset).toNat = offset.toNat ∧
    offset.toNat < 2 ^ 63 := by
  have := offset.toNat_lt
  unfold offT at h ⊢
  split_ifs at h ⊢ with hlt
  · exact ⟨Int.toNat_natCast _, hlt⟩
  · omega

/-- A transfer is under way: `n` bytes of it are done. -/
structure Transfer.Done (x₀ : Transfer) (n : ℕ) (x : Transfer) : Prop where
  /-- No more than are asked for. -/
  le : n ≤ x₀.count.toNat
  /-- `buf` is after them. -/
  buf : x.buf = x₀.buf + n
  /-- `count` is what is left. -/
  count : x.count.toNat = x₀.count.toNat - n
  /-- `offset` is after them. -/
  offset : x.offset.toNat = x₀.offset.toNat + n

theorem Transfer.Done.start (x : Transfer) : x.Done 0 x := ⟨Nat.zero_le _, rfl, rfl, rfl⟩

theorem Transfer.Done.advance {x₀ x : Transfer} {n r : ℕ} (h : x₀.Done n x) (hr : r ≤ x.count.toNat)
    (hoffset : x.offset.toNat < 2 ^ 63) : x₀.Done (n + r) (x.advance r) := by
  have hlt := x.count.toNat_lt
  have hle := h.le
  have hcount := h.count
  refine ⟨by omega, ?_, ?_, ?_⟩
  · rw [Transfer.advance, h.buf, Nat.add_assoc]
  · rw [Transfer.advance_count hr, hcount]
    omega
  · rw [Transfer.advance_offset (by omega), h.offset, Nat.add_assoc]

/-! ### What is transferred -/

/-- The last call failed, or transferred nothing. -/
def Stuck (t : List (Event FileCall FileResp)) : Prop :=
  ∃ e, t.getLast? = some e ∧ (transferred e = none ∨ transferred e = some 0)

section Transfers

variable {env : Env FileCall FileResp σ} {content : σ → ℕ → UInt8} {m : FileMem} {h : FileIdx}

/-- A round of `file_pread`: nothing is left, `pread` fails or is at the end of the file, or it has
read some. -/
theorem wp_preadRound {P : Post FileMem FileCall FileResp σ (Option ℕ)}
    {Q : Post FileMem FileCall FileResp σ (Ctl Transfer ℤ)} {x : Transfer} {w : σ}
    (hdone : x.count = 0 → Q (.ret (.done 0)) m w [])
    (hcall : x.count ≠ 0 → wp env (sysPread h x) P m w)
    (hfail : ∀ r m' w' t, x.count ≠ 0 → r = none ∨ r = some 0 → P (.ret r) m' w' t →
      Q (.ret (.done (-1))) m' w' t) (hnext : ∀ r m' w' t, x.count ≠ 0 → r ≠ 0 →
      P (.ret (some r)) m' w' t → Q (.ret (.next (x.advance r))) m' w' t)
    (hhalt : ∀ e m' w' t, x.count ≠ 0 → P (.halt e) m' w' t → Q (.halt e) m' w' t) :
    wp env (preadRound h x) Q m w := by
  rw [preadRound]
  split_ifs with hzero
  · exact hdone hzero
  · rw [wp_bind]
    refine wp_mono env ?_ (hcall hzero)
    rintro ((_ | r) | e) m' w' t ht
    · rw [Post.seq_ret, wp_pure, Post.after_apply, List.append_nil]
      exact hfail none m' w' t hzero (.inl rfl) ht
    · rw [Post.seq_ret]
      dsimp only
      split_ifs with hr
      · rw [wp_pure, Post.after_apply, List.append_nil]
        exact hfail (some r) m' w' t hzero (.inr (congrArg some hr)) ht
      · rw [wp_pure, Post.after_apply, List.append_nil]
        exact hnext r m' w' t hzero hr ht
    · exact hhalt e m' w' t hzero ht

/-- A round of `file_pwrite`: nothing is left, `pwrite` fails, or it has written some, or none. -/
theorem wp_pwriteRound {P : Post FileMem FileCall FileResp σ (Option ℕ)}
    {Q : Post FileMem FileCall FileResp σ (Ctl Transfer ℤ)} {x : Transfer} {w : σ}
    (hdone : x.count = 0 → Q (.ret (.done 0)) m w [])
    (hcall : x.count ≠ 0 → wp env (sysPwrite h x) P m w)
    (hfail : ∀ m' w' t, x.count ≠ 0 → P (.ret none) m' w' t → Q (.ret (.done (-1))) m' w' t)
    (hnext : ∀ r m' w' t, x.count ≠ 0 → P (.ret (some r)) m' w' t →
      Q (.ret (.next (x.advance r))) m' w' t) (hhalt : ∀ e m' w' t, x.count ≠ 0 →
      P (.halt e) m' w' t → Q (.halt e) m' w' t) :
    wp env (pwriteRound h x) Q m w := by
  rw [pwriteRound]
  split_ifs with hzero
  · exact hdone hzero
  · rw [wp_bind]
    refine wp_mono env ?_ (hcall hzero)
    rintro ((_ | r) | e) m' w' t ht
    · rw [Post.seq_ret, wp_pure, Post.after_apply, List.append_nil]
      exact hfail m' w' t hzero ht
    · rw [Post.seq_ret, wp_pure, Post.after_apply, List.append_nil]
      exact hnext r m' w' t hzero ht
    · exact hhalt e m' w' t hzero ht

/-- What is expected of `file_pread`: it returns `0` when the buffer holds the bytes of the file and
nothing else was stored, and otherwise `-1`, after a call that failed or was at the end of the
file. -/
def ReadsRange (content : σ → ℕ → UInt8) (m : FileMem) (w : σ) (buf : ℕ)
    (count : UInt32) (offset : UInt64) : Post FileMem FileCall FileResp σ ℤ := fun o m' w' t =>
  content w' = content w ∧
  (o = .ret 0 ∧ m' = { m with
      bytes := overlay m.bytes buf count.toNat fun i => content w (offset.toNat + i) } ∨
    o = .ret (-1) ∧ Stuck t)

/-- What is expected of `file_pwrite`: a prefix of the range holds the bytes of the buffer, and
nothing else was written; it is the whole range if it returns `0`, and it returns nothing but `0`
and `-1`. -/
def WritesRange (content : σ → ℕ → UInt8) (m : FileMem) (w : σ) (buf : ℕ)
    (count : UInt32) (offset : UInt64) : Post FileMem FileCall FileResp σ ℤ := fun o m' w' _ =>
  m' = m ∧ ∃ n ≤ count.toNat, content w' = overlay (content w) offset.toNat n
    (fun i => m.bytes (buf + i)) ∧ (o = .ret 0 ∧ n = count.toNat ∨ o = .ret (-1) ∨ o = .halt .fuel)

theorem getD_stretch {f : ℕ → UInt8} {o n i : ℕ} (hi : i < n) :
    (stretch f o n).getD i 0 = f (o + i) := by
  simp [stretch, hi]

theorem wp_sysPread {fd : ℤ} (hf : IsFile env fd content) (hfd : m.fd h = fd)
    (x : Transfer) (w : σ) :
    wp env (sysPread h x) (fun o m' w' t => content w' = content w ∧ ∃ e, t = [e] ∧
      o = .ret (transferred e) ∧
      (transferred e = none → m' = m) ∧ ∀ r, transferred e = some r → r ≤ x.count.toNat ∧
      x.offset.toNat < 2 ^ 63 ∧
        m' = { m with bytes := overlay m.bytes x.buf r fun i => content w (x.offset.toNat + i) })
  m w := by
  subst hfd
  unfold sysPread
  rw [wp_bind, wp_read, Post.seq_ret, wp_bind, wp_perform, Post.seq_ret]
  have hkeeps := hf.pread_keeps w x.count.toNat (offT x.offset)
  cases hr : (env w (.pread (m.fd h) x.count.toNat (offT x.offset))).1 with
  | none => exact ⟨hkeeps, _, rfl, rfl, fun _ => rfl, nofun⟩
  | some data =>
    obtain ⟨hnonneg, hle, hdata⟩ := hf.pread w _ _ data hr
    obtain ⟨hoff, hlt⟩ := offT_nonneg hnonneg
    rw [hoff] at hdata
    dsimp only
    rw [wp_bind, wp_modify, Post.seq_ret, wp_pure]
    refine ⟨hkeeps, _, rfl, rfl, nofun, ?_⟩
    rintro r ⟨⟩
    refine ⟨hle, hlt, ?_⟩
    congr 1
    refine overlay_congr (fun _ _ => rfl) fun i hi => ?_
    rw [hdata]
    exact getD_stretch hi

theorem wp_sysPwrite {fd : ℤ} (hf : IsFile env fd content) (hfd : m.fd h = fd)
    (x : Transfer) (w : σ) :
    wp env (sysPwrite h x) (fun o m' w' t => m' = m ∧ ∃ e, t = [e] ∧ o = .ret (transferred e) ∧
      (transferred e = none → content w' = content w) ∧ ∀ r, transferred e = some r →
      r ≤ x.count.toNat ∧
        x.offset.toNat < 2 ^ 63 ∧
        content w' = overlay (content w) x.offset.toNat r fun i => m.bytes (x.buf + i)) m w := by
  subst hfd
  unfold sysPwrite
  rw [wp_bind, wp_read, Post.seq_ret, wp_perform]
  refine ⟨rfl, _, rfl, rfl, fun hr => hf.pwrite_fails w _ _ hr, fun r hr => ?_⟩
  obtain ⟨hnonneg, hle, hcontent⟩ := hf.pwrite w _ _ r hr
  obtain ⟨hoff, hlt⟩ := offT_nonneg hnonneg
  have hle' : r ≤ x.count.toNat := by simpa [stretch] using hle
  refine ⟨hle', hlt, ?_⟩
  rw [hcontent, hoff]
  exact overlay_congr (fun _ _ => rfl) fun i hi => getD_stretch (Nat.lt_of_lt_of_le hi hle')

/-- `file_pread` ends, when all bytes are stored, or a call failed or was at the end of the file. -/
theorem wp_filePread (hf : IsFile env (m.fd h) content) {fuel buf : ℕ}
    {count : UInt32} {offset : UInt64} {flags : UInt32} (hfuel : count.toNat < fuel) (w : σ) :
    wp env (filePread fuel h buf count offset flags) (ReadsRange content m w buf count offset)
    m w := by
  rw [filePread, ← Post.after_nil (ReadsRange content m w buf count offset)]
  refine wp_loop_total env (fun x m' w' _ => content w' = content w ∧
      ∃ n, Transfer.Done ⟨buf, count, offset⟩ n x ∧
      m' = { m with bytes := overlay m.bytes buf n fun i => content w (offset.toNat + i) })
    (fun x _ _ => x.count.toNat) ?_ fuel _ m w [] hfuel ⟨rfl, 0, .start _, by rw [overlay_zero]⟩
  rintro x m' w' t ⟨hw, n, hdone, hm⟩
  have hfd : m'.fd h = m.fd h := by
    rw [hm]
    rfl
  have hle := hdone.le
  have hcount := hdone.count
  refine wp_preadRound (fun hzero => ?_) (fun _ => wp_sysPread hf hfd x w') ?_ ?_ ?_
  · rw [Post.round_done]
    rw [hzero] at hcount
    have hn : n = count.toNat := Nat.le_antisymm hle (Nat.sub_eq_zero_iff_le.mp hcount.symm)
    rw [hn] at hm
    exact ⟨hw, .inl ⟨rfl, hm⟩⟩
  · rintro r m'' w'' t' - hr ⟨hw'', e, rfl, he, -, -⟩
    cases he
    exact ⟨hw''.trans hw, .inr ⟨rfl, e, by simp, hr⟩⟩
  · rintro r m'' w'' t' hzero hr ⟨hw'', e, rfl, he, -, hsome⟩
    have hpos : 0 < x.count.toNat := Nat.pos_of_ne_zero fun h0 => hzero (UInt32.toNat_inj.mp h0)
    obtain ⟨hrle, hlt, rfl⟩ := hsome r (Outcome.ret.inj he).symm
    rw [Post.round_next]
    refine ⟨⟨hw''.trans hw, n + r, hdone.advance hrle hlt, ?_⟩, ?_⟩
    · rw [hm, ← overlay_overlay, hdone.buf, hw, hdone.offset]
      simp only [Nat.add_assoc]
    · rw [Transfer.advance_count hrle]
      omega
  · rintro e m'' w'' t' - ⟨-, e', -, he, -⟩
    cases he

/-- `file_pwrite` writes a prefix of the range, and all of it if it does not fail. -/
theorem wp_filePwrite (hf : IsFile env (m.fd h) content) (fuel buf : ℕ)
    (count : UInt32) (offset : UInt64) (flags : UInt32) (w : σ) :
    wp env (filePwrite fuel h buf count offset flags) (WritesRange content m w buf count offset)
    m w := by
  rw [filePwrite, ← Post.after_nil (WritesRange content m w buf count offset)]
  refine wp_loop env (fun x m' w' _ => m' = m ∧ ∃ n, Transfer.Done ⟨buf, count, offset⟩ n x ∧
      content w' = overlay (content w) offset.toNat n (fun i => m.bytes (buf + i))) ?_ ?_ fuel _ m w
      []
    ⟨rfl, 0, .start _, by rw [overlay_zero]⟩
  · rintro x m' w' t ⟨hm, n, hdone, hw⟩
    exact ⟨hm, n, hdone.le, hw, .inr (.inr rfl)⟩
  · rintro x m' w' t ⟨rfl, n, hdone, hw⟩
    have hle := hdone.le
    have hcount := hdone.count
    refine wp_pwriteRound (fun hzero => ?_) (fun _ => wp_sysPwrite hf rfl x w') ?_ ?_ ?_
    · rw [Post.round_done]
      rw [hzero] at hcount
      exact ⟨rfl, n, hle, hw, .inl ⟨rfl,
        Nat.le_antisymm hle (Nat.sub_eq_zero_iff_le.mp hcount.symm)⟩⟩
    · rintro m'' w'' t' - ⟨rfl, e, rfl, he, hnone, -⟩
      exact ⟨rfl, n, hle, (hnone (Outcome.ret.inj he).symm).trans hw, .inr (.inl rfl)⟩
    · rintro r m'' w'' t' - ⟨rfl, e, rfl, he, -, hsome⟩
      obtain ⟨hrle, hlt, hw''⟩ := hsome r (Outcome.ret.inj he).symm
      rw [Post.round_next]
      refine ⟨rfl, n + r, hdone.advance hrle hlt, ?_⟩
      rw [hw'', hw, ← overlay_overlay, hdone.buf, hdone.offset]
      simp only [Nat.add_assoc]
    · rintro e m'' w'' t' - ⟨-, e', -, he, -⟩
      cases he

/-- **Short transfers are completed.** Whatever the calls transfer, `file_pread` reads the range or
fails, if it has fuel for a call a byte, and `file_pwrite` writes a prefix of the range, and all of
it unless it fails. -/
theorem short_transfers_completed (hf : IsFile env (m.fd h) content) (fuel buf : ℕ)
    (count : UInt32) (offset : UInt64) (flags : UInt32) (w : σ) :
    (count.toNat < fuel →
      wp env (filePread fuel h buf count offset flags) (ReadsRange content m w buf count offset) m
      w) ∧
    wp env (filePwrite fuel h buf count offset flags) (WritesRange content m w buf count offset) m
    w :=
  ⟨fun hfuel => wp_filePread hf hfuel w, wp_filePwrite hf fuel buf count offset flags w⟩

end Transfers

namespace Sample

/-- An operating system that transfers a byte at a time. -/
def bytewise : Env FileCall FileResp (ℕ → UInt8) := fun w e => match e with
  | .openFile .. => ((3 : ℤ), w)
  | .closeFile _ | .fdatasync _ => ((0 : ℤ), w)
  | .fstat _ => (some 0, w)
  | .pread _ count offset =>
    if offset < 0 then (none, w) else (some (stretch w offset.toNat (min 1 count)), w)
  | .pwrite _ data offset =>
    if offset < 0 then (none, w)
    else (some (min 1 data.length), overlay w offset.toNat (min 1 data.length) (data.getD · 0))

theorem isFile_bytewise (fd : ℤ) : IsFile bytewise fd id where
  pread := fun w count offset data h => by
    rw [bytewise] at h
    split_ifs at h with hneg
    cases h
    simp only [length_stretch]
    exact ⟨Int.not_lt.mp hneg, Nat.min_le_right 1 count, rfl⟩
  pread_keeps := fun w count offset => by
    rw [bytewise]
    split_ifs <;> rfl
  pwrite := fun w data offset r h => by
    rw [bytewise] at h ⊢
    split_ifs at h ⊢ with hneg
    cases h
    exact ⟨Int.not_lt.mp hneg, Nat.min_le_right 1 _, rfl⟩
  pwrite_fails := fun w data offset h => by
    rw [bytewise] at h ⊢
    split_ifs at h ⊢
    rfl

/-- The first handle. -/
def first : FileIdx := ⟨0, by decide⟩

/-- Handles that hold descriptor `3`, and a caller whose memory holds `7`. -/
def opened : FileMem := ⟨.start (.replicate _ ⟨3, 0, []⟩), fun _ => 7⟩

/-- Two bytes are transferred, one at a time. -/
theorem short_transfers_completed_bytewise :
    wp bytewise (filePread 3 first 0 2 5 0) (ReadsRange id opened (fun _ => 9) 0 2 5)
    opened (fun _ => 9) ∧ wp bytewise (filePwrite 3 first 0 2 5 0)
    (WritesRange id opened (fun _ => 9) 0 2 5) opened (fun _ => 9) :=
  ⟨(short_transfers_completed (isFile_bytewise _) 3 0 2 5 0 _).1 (by decide),
    (short_transfers_completed (isFile_bytewise _) 3 0 2 5 0 _).2⟩

end Sample

end LwNBD.FilePlugin
