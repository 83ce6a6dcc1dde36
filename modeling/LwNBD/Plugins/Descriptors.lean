import LwNBD.Data.Runs
import LwNBD.Plugins.File
import Mathlib.Data.Set.Insert

/-!
# Descriptors of the file plugin

`file_get_size` opens the file of an export, each time it is asked for the size, which is at each
lookup of the export. The descriptor goes where the last one was, and nothing closes one:
`file_close` is never called. Before its first lookup an export has descriptor `0`, as the loader
leaves it.

## The model

* `IsDescriptors` — what is known of `open` and `close`: what `open` returns is not in use.
* `FileOp`, `FileRun` — creations, lookups, and transfers, and what a run of them leaves.
* `held`, `opened` — the descriptors that the plugin has opened and not closed, each with its file,
  and how many it has opened.
* `Given`, `Ready` — what is asked of an export that was created; when an operation does as
  expected.
* `Tidy` — what is expected of an operation.

## What is proved

* `Inv` — what every operation keeps.
* `descriptors_tidy_iff` — if all operations of a run are ready then all are tidy, and the converse.
-/

namespace LwNBD.FilePlugin

open Resumption

variable {σ : Type}

/-- What is known of `open` and `close`, where `inUse` are the descriptors of the process: `open`
fails, or returns one that is not in use. -/
structure IsDescriptors (env : Env FileCall FileResp σ) (inUse : σ → Set ℤ) : Prop where
  /-- `open`. -/
  openFile : ∀ w filename flags,
    (env w (.openFile filename flags)).1 = (-1 : ℤ) ∧
    inUse (env w (.openFile filename flags)).2 = inUse w ∨ (env w (.openFile filename flags)).1 ≠
    (-1 : ℤ) ∧ (env w (.openFile filename flags)).1 ∉ inUse w ∧
      inUse (env w (.openFile filename flags)).2 =
      insert (env w (.openFile filename flags)).1 (inUse w)
  /-- `close`. -/
  closeFile : ∀ w fd, inUse (env w (.closeFile fd)).2 = inUse w \ {fd}
  /-- The other calls leave them. -/
  keeps : ∀ w e, (∀ filename flags, e ≠ .openFile filename flags) → (∀ fd, e ≠ .closeFile fd) →
    inUse (env w e).2 = inUse w

/-! ### Runs -/

/-- What is done with file exports. -/
inductive FileOp where
  /-- One is created. -/
  | create (filename : Bytes) (c : Context)
  /-- `lwnbd_get_context` finds it, and asks for its size. -/
  | lookup (h : FileIdx)
  /-- `file_pread`, with up to `rounds + 1` rounds. -/
  | read (h : FileIdx) (rounds buf : ℕ) (count : UInt32) (offset : UInt64) (flags : UInt32)
  /-- `file_pwrite`, with up to `rounds + 1` rounds. -/
  | write (h : FileIdx) (rounds buf : ℕ) (count : UInt32) (offset : UInt64) (flags : UInt32)
  /-- `file_flush`. -/
  | flush (h : FileIdx) (flags : UInt32)

/-- The constructor is called with a context, and returns the handle of the export. -/
def fileNew (filename : Bytes) (c : Context) : FileProg (Option Handle) := do
  let m ← Prog.read
  match fileCtor filename m.slots c with
  | .halt _ => .halt .undefined
  | .ret (r, slots, c) => do
    Prog.modify fun m => { m with slots := slots }
    pure (if r = 0 then some c.handle else none)

/-- The operation, and the export that it has created. -/
def FileOp.prog : FileOp → FileProg (Option Handle)
  | .create filename c => fileNew filename c
  | .lookup h => do
    let _ ← fileGetSize h
    pure none
  | .read h rounds buf count offset flags => do
    let _ ← filePread (rounds + 1) h buf count offset flags
    pure none
  | .write h rounds buf count offset flags => do
    let _ ← filePwrite (rounds + 1) h buf count offset flags
    pure none
  | .flush h flags => do
    let _ ← fileFlush h flags
    pure none

/-- The export that it is done with. -/
def FileOp.export? : FileOp → Option FileIdx
  | .create .. => none
  | .lookup h | .read h .. | .write h .. | .flush h _ => some h

/-- The export that it looks up. -/
def FileOp.lookup? : FileOp → Option FileIdx
  | .lookup h => some h
  | _ => none

/-- The export that was created, if it was. -/
def created : Outcome (Option Handle) → List Handle
  | .ret (some h) => [h]
  | _ => []

theorem created_eq_nil {o : Outcome (Option Handle)} (h : ∀ i, o ≠ .ret (some i)) :
    created o = [] := by
  rcases o with (- | i) | e
  · rfl
  · exact absurd rfl (h i)
  · rfl

/-- A run so far. -/
structure FileRun (σ : Type) where
  /-- The memory. -/
  mem : FileMem
  /-- The environment. -/
  world : σ
  /-- The exports that were created. -/
  exports : List Handle
  /-- The exports that were looked up. -/
  lookups : List FileIdx
  /-- The calls of the operating system. -/
  calls : List (Event FileCall FileResp)

/-- The start: the handles are as the loader leaves them. -/
def FileRun.start (bytes : ℕ → UInt8) (w : σ) : FileRun σ :=
  ⟨⟨.start (.replicate _ ⟨0, 0, []⟩), bytes⟩, w, [], [], []⟩

/-- An operation is done. -/
def FileRun.step (env : Env FileCall FileResp σ) (s : FileRun σ) (op : FileOp) : FileRun σ where
  mem := (op.prog.run env s.mem s.world).mem
  world := (op.prog.run env s.mem s.world).env
  exports := created (op.prog.run env s.mem s.world).out ++ s.exports
  lookups := op.lookup?.toList ++ s.lookups
  calls := s.calls ++ (op.prog.run env s.mem s.world).trace

/-! ### Descriptors -/

/-- A call changes which descriptors are held. -/
def hold (fds : List (ℤ × Bytes)) : Event FileCall FileResp → List (ℤ × Bytes)
  | ⟨.openFile filename _, fd⟩ =>
    if fd = (-1 : ℤ) then fds else (fd, filename) :: fds.filter fun x => x.1 ≠ fd
  | ⟨.closeFile fd, _⟩ => fds.filter fun x => x.1 ≠ fd
  | _ => fds

/-- The descriptors that are held, each with the name of the file that it is open on. -/
def held (t : List (Event FileCall FileResp)) : List (ℤ × Bytes) := t.foldl hold []

/-- A call of `open` that did not fail. -/
def opens : Event FileCall FileResp → Bool
  | ⟨.openFile _ _, fd⟩ => fd ≠ (-1 : ℤ)
  | _ => false

/-- How many files were opened. -/
def opened (t : List (Event FileCall FileResp)) : ℕ := t.countP opens

/-- The descriptor that a transfer or a flush is made with. -/
def FileCall.fd? : FileCall → Option ℤ
  | .pread fd _ _ | .pwrite fd _ _ | .fdatasync fd => some fd
  | _ => none

/-- The name of the file of an export. -/
def FileMem.filename (m : FileMem) (h : FileIdx) : Bytes := (m.slots.handles.get h).filename

/-- What `open` returns when the size of an export is asked for. -/
def FileMem.reopen (m : FileMem) (env : Env FileCall FileResp σ) (w : σ) (h : FileIdx) : ℤ × σ :=
  env w (.openFile (m.filename h) (O_RDWR + O_CLOEXEC))

/-- The export that the operation is done with was created. -/
def Given (s : FileRun σ) (op : FileOp) : Prop := ∀ h ∈ op.export?, h.val ∈ s.exports

/-- What is expected of an operation: it transfers and flushes with descriptors that are open on the
file of the export, and after it no more descriptors are held than there are exports. -/
structure Tidy (env : Env FileCall FileResp σ) (s : FileRun σ) (op : FileOp) : Prop where
  /-- The descriptors that it uses. -/
  uses : ∀ h ∈ op.export?, ∀ e ∈ calls (op.prog.run env s.mem s.world).trace, ∀ fd ∈ e.fd?,
    (fd, s.mem.filename h) ∈ held s.calls
  /-- The descriptors that are held. -/
  bound : (held (s.step env op).calls).length ≤ (s.step env op).exports.length

/-- The export was looked up, and the last time its file was opened. -/
def Ready.Opened (s : FileRun σ) (h : FileIdx) : Prop := h ∈ s.lookups ∧ s.mem.fd h ≠ -1

/-- The operation is ready: a lookup opens nothing, or fewer files were opened than there are
exports; a transfer of no bytes, or of an export whose last lookup has opened its file. -/
def Ready (env : Env FileCall FileResp σ) (s : FileRun σ) : FileOp → Prop
  | .create .. => True
  | .lookup h => (s.mem.reopen env s.world h).1 = -1 ∨ opened s.calls < s.exports.length
  | .read h _ _ count .. | .write h _ _ count .. => count = 0 ∨ Ready.Opened s h
  | .flush h _ => Ready.Opened s h

/-! ### What the operations do -/

section Operations

variable {env : Env FileCall FileResp σ} {inUse : σ → Set ℤ} {m : FileMem} {w : σ}
  {h : FileIdx} {α : Type}

/-- Nothing but transfers and flushes with the descriptor of an export, and the handles are left. -/
def UsesFd (inUse : σ → Set ℤ) (h : FileIdx) (m : FileMem) (w : σ) :
    Post FileMem FileCall FileResp σ α :=
  fun _ m' w' t => m'.slots = m.slots ∧ inUse w' = inUse w ∧ ∀ e ∈ calls t, e.fd? = some (m.fd h)

/-- And no call is made if there is no byte to transfer. -/
def Transfers (inUse : σ → Set ℤ) (h : FileIdx) (m : FileMem) (w : σ) (x : Transfer) :
    Post FileMem FileCall FileResp σ α :=
  fun o m' w' t => UsesFd inUse h m w o m' w' t ∧ (x.count = 0 ↔ t = [])

theorem UsesFd.nil (o : Outcome α) : UsesFd inUse h m w o m w [] := by
  refine ⟨rfl, rfl, fun e he => ?_⟩
  cases he

theorem UsesFd.fd_eq {m' : FileMem} (hm : m'.slots = m.slots) : m'.fd h = m.fd h := by
  rw [FileMem.fd, hm, FileMem.fd]

/-- A call that has a descriptor leaves those in use. -/
theorem IsDescriptors.keeps_of_fd? (hd : IsDescriptors env inUse) {e : FileCall} {fd : ℤ}
    (he : e.fd? = some fd) :
    inUse (env w e).2 = inUse w := by
  refine hd.keeps w e ?_ ?_
  · rintro filename flags rfl
    cases he
  · rintro fd' rfl
    cases he

theorem IsDescriptors.keeps_fstat (hd : IsDescriptors env inUse) (fd : ℤ) :
    inUse (env w (.fstat fd)).2 = inUse w := by
  refine hd.keeps w _ ?_ ?_
  · intro filename flags he
    cases he
  · intro fd' he
    cases he

theorem wp_sysPread_uses (hd : IsDescriptors env inUse) (x : Transfer) :
    wp env (sysPread h x) (fun o m' w' t => UsesFd inUse h m w o m' w' t ∧ t ≠ []) m w := by
  unfold sysPread
  rw [wp_bind, wp_read, Post.seq_ret, wp_bind, wp_perform, Post.seq_ret]
  have hkeeps := hd.keeps_of_fd? (w := w) (e := .pread (m.fd h) x.count.toNat (offT x.offset)) rfl
  cases (env w (.pread (m.fd h) x.count.toNat (offT x.offset))).1 with
  | none => exact ⟨⟨rfl, hkeeps, by simp [FileCall.fd?]⟩, nofun⟩
  | some data =>
    dsimp only
    rw [wp_bind, wp_modify, Post.seq_ret, wp_pure]
    exact ⟨⟨rfl, hkeeps, by simp [FileCall.fd?]⟩, nofun⟩

theorem wp_sysPwrite_uses (hd : IsDescriptors env inUse) (x : Transfer) :
    wp env (sysPwrite h x) (fun o m' w' t => UsesFd inUse h m w o m' w' t ∧ t ≠ []) m w := by
  unfold sysPwrite
  rw [wp_bind, wp_read, Post.seq_ret, wp_perform]
  exact ⟨⟨rfl, hd.keeps_of_fd? rfl, by simp [FileCall.fd?]⟩, nofun⟩

theorem wp_preadRound_uses (hd : IsDescriptors env inUse) (x : Transfer) :
    wp env (preadRound h x) (Transfers inUse h m w x) m w := by
  refine wp_preadRound (fun hzero => ⟨UsesFd.nil _, iff_of_true hzero rfl⟩)
    (fun _ => wp_sysPread_uses hd x) ?_ ?_ ?_
  · exact fun _ _ _ _ hzero _ ⟨huses, hne⟩ => ⟨huses, iff_of_false hzero hne⟩
  · exact fun _ _ _ _ hzero _ ⟨huses, hne⟩ => ⟨huses, iff_of_false hzero hne⟩
  · exact fun _ _ _ _ hzero ⟨huses, hne⟩ => ⟨huses, iff_of_false hzero hne⟩

theorem wp_pwriteRound_uses (hd : IsDescriptors env inUse) (x : Transfer) :
    wp env (pwriteRound h x) (Transfers inUse h m w x) m w := by
  refine wp_pwriteRound (fun hzero => ⟨UsesFd.nil _, iff_of_true hzero rfl⟩)
    (fun _ => wp_sysPwrite_uses hd x) ?_ ?_ ?_
  · exact fun _ _ _ hzero ⟨huses, hne⟩ => ⟨huses, iff_of_false hzero hne⟩
  · exact fun _ _ _ _ hzero ⟨huses, hne⟩ => ⟨huses, iff_of_false hzero hne⟩
  · exact fun _ _ _ _ hzero ⟨huses, hne⟩ => ⟨huses, iff_of_false hzero hne⟩

/-- A loop whose rounds use the descriptor of an export uses nothing else, and makes no call if it
has no byte to transfer. -/
theorem wp_loop_uses {body : Transfer → FileProg (Ctl Transfer ℤ)}
    (hbody : ∀ x (m : FileMem) (w : σ), wp env (body x) (Transfers inUse h m w x) m w)
    (hdone : ∀ x : Transfer, x.count = 0 → body x = pure (.done 0)) (n : ℕ) (x : Transfer)
    (m : FileMem) (w : σ) : wp env (Prog.loop (n + 1) body x) (Transfers inUse h m w x) m w := by
  rw [wp_loop_succ]
  by_cases hzero : x.count = 0
  · rw [hdone x hzero]
    exact ⟨UsesFd.nil _, iff_of_true hzero rfl⟩
  · refine wp_mono env ?_ (hbody x m w)
    rintro ((x' | r) | e) m' w' t ⟨⟨hm, hw, huses⟩, hnil⟩
    · have hne (t' : List (Event FileCall FileResp)) : t ++ t' ≠ [] :=
        List.append_ne_nil_of_left_ne_nil (mt hnil.mpr hzero) t'
      rw [Post.round_next, List.nil_append, ← Post.after_nil (Post.after _ t)]
      refine wp_loop env (fun _ m'' w'' t' => m''.slots = m.slots ∧ inUse w'' = inUse w ∧
          ∀ e ∈ calls t', e.fd? = some (m.fd h)) ?_ ?_ n x' m' w' [] ⟨hm, hw, nofun⟩
      · rintro y m'' w'' t' ⟨hm', hw', huses'⟩
        exact ⟨⟨hm', hw', calls_forall_append huses huses'⟩, iff_of_false hzero (hne t')⟩
      · rintro y m'' w'' t' ⟨hm', hw', huses'⟩
        refine wp_mono env ?_ (hbody y m'' w'')
        rintro o m₃ w₃ t₃ ⟨⟨hm₃, hw₃, huses₃⟩, -⟩
        rw [UsesFd.fd_eq hm'] at huses₃
        have hall := calls_forall_append huses' huses₃
        rcases o with (y' | r) | e
        · exact ⟨hm₃.trans hm', hw₃.trans hw', hall⟩
        · exact ⟨⟨hm₃.trans hm', hw₃.trans hw', calls_forall_append huses hall⟩,
            iff_of_false hzero (hne _)⟩
        · exact ⟨⟨hm₃.trans hm', hw₃.trans hw', calls_forall_append huses hall⟩,
            iff_of_false hzero (hne _)⟩
    · exact ⟨⟨hm, hw, huses⟩, hnil⟩
    · exact ⟨⟨hm, hw, huses⟩, hnil⟩

/-- What is done with an export and returns no other. -/
theorem wp_ignore {p : FileProg α} {Q : Post FileMem FileCall FileResp σ (Option Handle)}
    (hp : wp env p (fun _ m' w' t => ∀ o, (∀ i, o ≠ .ret (some i)) → Q o m' w' t) m w) :
    wp env (do let _ ← p; pure none) Q m w := by
  rw [wp_bind]
  refine wp_mono env ?_ hp
  rintro (a | e) m' w' t hQ
  · rw [Post.seq_ret, wp_pure, Post.after_apply, List.append_nil]
    exact hQ _ nofun
  · exact hQ _ nofun

/-- A handle that is written is as written, and the others are left. -/
theorem FileMem.get_set (m : FileMem) (h h' : FileIdx) (x : FileHandle) :
    (m.slots.handles.set h x h.isLt).get h' = if h' = h then x else m.slots.handles.get h' := by
  split_ifs with heq
  · subst heq
    exact Vector.getElem_set_self _
  · exact Vector.getElem_set_ne _ _ fun hval => heq (Fin.ext hval.symm)

/-- What a lookup does: it opens the file, and the handle has what `open` returned. -/
theorem wp_lookup (hd : IsDescriptors env inUse) : wp env (FileOp.lookup h).prog (fun o m' w' t =>
    (∀ i, o ≠ .ret (some i)) ∧ inUse w' = inUse (m.reopen env w h).2 ∧ ∃ flags x,
      t = [⟨.openFile (m.filename h) (O_RDWR + O_CLOEXEC), (m.reopen env w h).1⟩,
        ⟨.fstat (m.reopen env w h).1, x⟩] ∧
      m'.slots = ⟨m.slots.handles.set h ⟨(m.reopen env w h).1, flags, m.filename h⟩ h.isLt,
      m.slots.inUse⟩) m w := by
  refine wp_ignore ?_
  unfold fileGetSize fileOpen
  simp only [Bool.false_eq_true, if_false, wp_bind, wp_read, wp_modify, wp_perform,
    Post.seq_ret, wp_pure, Post.after_apply, List.nil_append, List.append_nil, List.cons_append]
  have hfd {slots : Slots FILE_DRIVER_MAX_DEVICES FileHandle} {x : FileHandle} {bytes : ℕ → UInt8} :
      FileMem.fd ⟨{ slots with handles := slots.handles.set h x h.isLt }, bytes⟩ h = x.fd := by
    rw [FileMem.fd, FileMem.get_set ⟨slots, bytes⟩, if_pos rfl]
  rw [hfd]
  exact fun _ ho => ⟨ho, hd.keeps_fstat _, _, _, rfl, rfl⟩

/-- What a creation does: it takes a free handle, and leaves the descriptor. -/
theorem wp_fileNew (env : Env FileCall FileResp σ) (filename : Bytes) (c : Context) :
    wp env (fileNew filename c) (fun o m' w' t => t = [] ∧ w' = w ∧
    (m'.slots = m.slots ∧ (∀ i, o ≠ .ret (some i)) ∨ ∃ i : FileIdx, o = .ret (some i.val) ∧
      m.slots.inUse[i] = .free ∧ m'.slots = ⟨m.slots.handles.set i
        { m.slots.handles.get i with filename := basename filename } i.isLt,
        m.slots.inUse.set i .created i.isLt⟩)) m w := by
  unfold fileNew
  rw [wp_bind, wp_read, Post.seq_ret]
  cases ht : Pool.take HandleState.isFree .created m.slots.inUse with
  | none =>
    rw [fileCtor, poolCtor_full (Pool.take_eq_none_iff.mp ht)]
    exact ⟨rfl, rfl, .inl ⟨rfl, nofun⟩⟩
  | some found =>
    obtain ⟨i, inUse⟩ := found
    obtain ⟨-, rfl⟩ := Pool.take_eq_some ht
    have hfree : m.slots.inUse[i] = .free := by
      simpa [HandleState.isFree] using Pool.free_of_take ht
    rw [fileCtor, poolCtor_take ht]
    split_ifs with hfits
    · dsimp only
      rw [wp_bind, wp_modify, Post.seq_ret, if_pos rfl, wp_pure]
      exact ⟨rfl, rfl, .inr ⟨i, rfl, hfree, rfl⟩⟩
    · exact ⟨rfl, rfl, .inl ⟨rfl, nofun⟩⟩

/-- The operation needs a descriptor. -/
def FileOp.Moves : FileOp → Prop
  | .create .. | .lookup _ => False
  | .read _ _ _ count .. | .write _ _ _ count .. => count ≠ 0
  | .flush .. => True

theorem wp_transfer (hd : IsDescriptors env inUse) {op : FileOp} (hop : op.export? = some h)
    (hlookup : op ≠ .lookup h) : wp env op.prog (fun o m' w' t => (∀ i, o ≠ .ret (some i)) ∧
      UsesFd inUse h m w o m' w' t ∧ (¬ op.Moves ↔ t = [])) m w := by
  cases op with
  | create => cases hop
  | lookup h' =>
    cases hop
    exact absurd rfl hlookup
  | read h' rounds buf count offset flags =>
    cases hop
    refine wp_ignore (wp_mono env ?_
      (wp_loop_uses (fun x m w => wp_preadRound_uses hd x) (fun _ hzero => if_pos hzero) rounds
      ⟨buf, count, offset⟩ m w))
    exact fun o m' w' t ⟨huses, hnil⟩ _ ho => ⟨ho, huses, not_not.trans hnil⟩
  | write h' rounds buf count offset flags =>
    cases hop
    refine wp_ignore (wp_mono env ?_
      (wp_loop_uses (fun x m w => wp_pwriteRound_uses hd x) (fun _ hzero => if_pos hzero) rounds
      ⟨buf, count, offset⟩ m w))
    exact fun o m' w' t ⟨huses, hnil⟩ _ ho => ⟨ho, huses, not_not.trans hnil⟩
  | flush h' flags =>
    cases hop
    refine wp_ignore ?_
    unfold fileFlush
    rw [wp_bind, wp_read, Post.seq_ret, wp_bind, wp_perform, Post.seq_ret, wp_pure]
    exact fun _ ho =>
      ⟨ho, ⟨rfl, hd.keeps_of_fd? rfl, by simp [FileCall.fd?]⟩,
        iff_of_false (not_not_intro trivial) nofun⟩

end Operations

/-! ### The invariant -/

section Invariant

variable {env : Env FileCall FileResp σ} {inUse : σ → Set ℤ} {w₀ : σ} {s : FileRun σ} {op : FileOp}

/-- What every operation keeps. What depends on `w₀`, the environment at the start, is that
descriptor `0` is not held, if it was in use then. -/
structure Inv (inUse : σ → Set ℤ) (w₀ : σ) (s : FileRun σ) : Prop where
  /-- The handles of the exports are taken. -/
  created : ∀ i ∈ s.exports, s.mem.slots.inUse[i]? = some HandleState.created
  /-- Only exports were looked up. -/
  lookups : ∀ h ∈ s.lookups, h.val ∈ s.exports
  /-- An export whose last lookup has opened its file has a descriptor of it. -/
  file : ∀ h ∈ s.lookups, s.mem.fd h ≠ -1 → (s.mem.fd h, s.mem.filename h) ∈ held s.calls
  /-- One that was not looked up has descriptor `0`. -/
  loaded : ∀ h ∉ s.lookups, s.mem.fd h = 0
  /-- The descriptors that are held are in use. -/
  live : ∀ x ∈ held s.calls, x.1 ∈ inUse s.world
  /-- They are not `-1`. -/
  valid : ∀ x ∈ held s.calls, x.1 ≠ -1
  /-- None was closed. -/
  count : (held s.calls).length = opened s.calls
  /-- Descriptor `0` is not held. -/
  stdin : 0 ∈ inUse w₀ → 0 ∈ inUse s.world ∧ ∀ x ∈ held s.calls, x.1 ≠ 0

theorem inv_start (bytes : ℕ → UInt8) (w : σ) : Inv inUse w (.start bytes w) where
  created := nofun
  lookups := nofun
  file := nofun
  loaded := fun h _ => congrArg FileHandle.fd (Vector.getElem_replicate h.isLt)
  live := nofun
  valid := nofun
  count := rfl
  stdin := fun h => ⟨h, nofun⟩

theorem held_append (t t' : List (Event FileCall FileResp)) :
    held (t ++ t') = t'.foldl hold (held t) := List.foldl_append

theorem held_uses {t t' : List (Event FileCall FileResp)} {fd : ℤ}
    (h : ∀ e ∈ calls t', e.fd? = some fd) :
    held (t ++ t') = held t ∧ opened (t ++ t') = opened t := by
  have hheld (e : Event FileCall FileResp) (he : e ∈ t') (fds : List (ℤ × Bytes)) :
      hold fds e = fds ∧ opens e = false := by
    have hfd := h e.1 (List.mem_map_of_mem he)
    obtain ⟨e, r⟩ := e
    cases e with
    | openFile | closeFile | fstat => cases hfd
    | fdatasync | pread | pwrite => exact ⟨rfl, rfl⟩
  constructor
  · rw [held_append]
    clear h
    induction t' with
    | nil => rfl
    | cons e t' ih =>
      rw [List.foldl_cons, (hheld e List.mem_cons_self _).1]
      exact ih fun e' he' => hheld e' (List.mem_cons_of_mem e he')
  · rw [opened, List.countP_append, opened, Nat.add_eq_left, List.countP_eq_zero]
    exact fun e he => by simp [(hheld e he []).2]

/-- What an operation that leaves what is held must keep. -/
theorem Inv.keep {s' : FileRun σ} (h : Inv inUse w₀ s) (hslots : s'.mem.slots = s.mem.slots)
    (hexports : s'.exports = s.exports) (hlookups : s'.lookups = s.lookups)
    (hheld : held s'.calls = held s.calls) (hopened : opened s'.calls = opened s.calls)
    (hworld : inUse s'.world = inUse s.world) : Inv inUse w₀ s' where
  created := by rw [hslots, hexports]; exact h.created
  lookups := by rw [hlookups, hexports]; exact h.lookups
  file := by
    unfold FileMem.fd FileMem.filename
    rw [hslots, hlookups, hheld]
    exact h.file
  loaded := by
    unfold FileMem.fd
    rw [hslots, hlookups]
    exact h.loaded
  live := by rw [hheld, hworld]; exact h.live
  valid := by rw [hheld]; exact h.valid
  count := by rw [hheld, hopened]; exact h.count
  stdin := by rw [hheld, hworld]; exact h.stdin

theorem Inv.step_transfer (hd : IsDescriptors env inUse) (h : Inv inUse w₀ s) {i : FileIdx}
    (hop : op.export? = some i) (hlookup : op ≠ .lookup i) :
    Inv inUse w₀ (s.step env op) ∧ held (s.step env op).calls = held s.calls ∧
      (s.step env op).exports = s.exports := by
  obtain ⟨hout, ⟨hslots, hworld, huses⟩, -⟩ :=
    wp_transfer (m := s.mem) (w := s.world) hd hop hlookup
  obtain ⟨hheld, hopened⟩ := held_uses (t := s.calls) huses
  have hexports : (s.step env op).exports = s.exports := by
    rw [FileRun.step, created_eq_nil hout, List.nil_append]
  have hlookups : (s.step env op).lookups = s.lookups := by
    cases op with
    | lookup i' =>
      cases hop
      exact absurd rfl hlookup
    | create | read | write | flush => rfl
  exact ⟨h.keep hslots hexports hlookups hheld hopened hworld, hheld, hexports⟩

/-- What is created has no descriptor that was opened. -/
theorem Inv.step_create (h : Inv inUse w₀ s) (env : Env FileCall FileResp σ)
    (filename : Bytes) (c : Context) : Inv inUse w₀ (s.step env (.create filename c)) ∧
    held (s.step env (.create filename c)).calls = held s.calls ∧
    s.exports.length ≤ (s.step env (.create filename c)).exports.length := by
  obtain ⟨ht, hw, hcase⟩ := wp_fileNew (m := s.mem) (w := s.world) env filename c
  have hcalls : (s.step env (.create filename c)).calls = s.calls := by
    show s.calls ++ ((fileNew filename c).run env s.mem s.world).trace = s.calls
    rw [ht, List.append_nil]
  have hworld : (s.step env (.create filename c)).world = s.world := hw
  have hlookups : (s.step env (.create filename c)).lookups = s.lookups := rfl
  rcases hcase with ⟨hslots, hout⟩ | ⟨i, hout, hfree, hslots⟩
  · have hexports : (s.step env (.create filename c)).exports = s.exports := by
      rw [FileRun.step, FileOp.prog, created_eq_nil hout, List.nil_append]
    refine ⟨h.keep hslots hexports hlookups (by rw [hcalls]) (by rw [hcalls]) (by rw [hworld]), by
      rw [hcalls], ?_⟩
    rw [hexports]
  · have hexports : (s.step env (.create filename c)).exports = i.val :: s.exports := by
      rw [FileRun.step, FileOp.prog, hout]
      rfl
    -- The handle that is taken is that of no export.
    have hnew : i.val ∉ s.exports := fun hi => by
      have hcreated := h.created i.val hi
      rw [Vector.getElem?_eq_getElem i.isLt] at hcreated
      exact absurd (hfree.symm.trans (Option.some.inj hcreated)) nofun
    have hget (j : FileIdx) : (s.step env (.create filename c)).mem.slots.handles.get j = if j =
        i then
        { s.mem.slots.handles.get i with filename := basename filename }
          else s.mem.slots.handles.get j := by
      rw [show (s.step env (.create filename c)).mem.slots = _ from hslots]
      exact s.mem.get_set i j _
    have hfd (j : FileIdx) : (s.step env (.create filename c)).mem.fd j = s.mem.fd j := by
      rw [FileMem.fd, hget]
      split_ifs with hj
      · rw [hj, FileMem.fd]
      · rfl
    refine ⟨⟨?_, ?_, ?_, ?_, ?_, ?_, ?_, ?_⟩, by rw [hcalls], ?_⟩
    · rw [hexports, show (s.step env (.create filename c)).mem.slots = _ from hslots]
      intro j hj
      dsimp only
      rcases List.mem_cons.mp hj with rfl | hj
      · exact Vector.getElem?_set_self i.isLt
      · rw [Vector.getElem?_set_ne i.isLt fun heq => hnew (heq ▸ hj)]
        exact h.created j hj
    · rw [hexports, hlookups]
      exact fun j hj => List.mem_cons_of_mem _ (h.lookups j hj)
    · rw [hlookups, hcalls]
      intro j hj hne
      have hji : j ≠ i := fun heq => hnew (heq ▸ h.lookups j hj)
      rw [hfd] at hne ⊢
      rw [FileMem.filename, hget, if_neg hji]
      exact h.file j hj hne
    · rw [hlookups]
      exact fun j hj => (hfd j).trans (h.loaded j hj)
    · rw [hcalls, hworld]
      exact h.live
    · rw [hcalls]
      exact h.valid
    · rw [hcalls]
      exact h.count
    · rw [hcalls, hworld]
      exact h.stdin
    · rw [hexports]
      exact Nat.le_succ _

theorem lookup_handles (hd : IsDescriptors env inUse) (s : FileRun σ) (i : FileIdx) :
    (s.step env (.lookup i)).mem.slots.inUse = s.mem.slots.inUse ∧
    (∀ j, (s.step env (.lookup i)).mem.fd j = if j = i then (s.mem.reopen env s.world i).1
      else s.mem.fd j) ∧
    ∀ j, (s.step env (.lookup i)).mem.filename j = s.mem.filename j := by
  obtain ⟨-, -, flags, -, -, hslots⟩ := wp_lookup (m := s.mem) (w := s.world) (h := i) hd
  have hstep : (s.step env (.lookup i)).mem.slots = _ := hslots
  have hget (j : FileIdx) : (s.step env (.lookup i)).mem.slots.handles.get j =
      if j = i then ⟨(s.mem.reopen env s.world i).1, flags, s.mem.filename i⟩
      else s.mem.slots.handles.get j := by
    rw [hstep]
    exact s.mem.get_set i j _
  refine ⟨by rw [hstep], fun j => ?_, fun j => ?_⟩
  · rw [FileMem.fd, hget]
    split_ifs <;> rfl
  · rw [FileMem.filename, hget]
    split_ifs with hji
    · rw [hji]
    · rfl

/-- What a lookup does to what is held: there is one descriptor more, if the file was opened. -/
theorem Inv.lookup_held (hd : IsDescriptors env inUse) (h : Inv inUse w₀ s) (i : FileIdx) :
    let fd := (s.mem.reopen env s.world i).1
    let s' := s.step env (.lookup i)
    (fd = -1 ∧ inUse s'.world = inUse s.world ∧ held s'.calls = held s.calls ∧
      opened s'.calls = opened s.calls) ∨
    (fd ≠ -1 ∧ fd ∉ inUse s.world ∧ inUse s'.world = insert fd (inUse s.world) ∧
      held s'.calls = (fd, s.mem.filename i) :: held s.calls ∧
      opened s'.calls = opened s.calls + 1) := by
  intro fd s'
  obtain ⟨-, hworld, flags, x, htrace, -⟩ := wp_lookup (m := s.mem) (w := s.world) (h := i) hd
  have hheld : held s'.calls = if fd = -1 then held s.calls
      else (fd, s.mem.filename i) :: (held s.calls).filter fun x => x.1 ≠ fd := by
    show held (s.calls ++ ((FileOp.lookup i).prog.run env s.mem s.world).trace) = _
    rw [htrace, held_append]
    rfl
  have hopened : opened s'.calls = opened s.calls + if fd = -1 then 0 else 1 := by
    show opened (s.calls ++ ((FileOp.lookup i).prog.run env s.mem s.world).trace) = _
    rw [htrace, opened, List.countP_append]
    congr 1
    split_ifs with hfail <;> simp [opens, fd, hfail]
  have huse : inUse s'.world = inUse (s.mem.reopen env s.world i).2 := hworld
  rw [hheld, hopened, huse]
  rcases hd.openFile s.world (s.mem.filename i) (O_RDWR + O_CLOEXEC) with ⟨hfail,
    hsame⟩ | ⟨hok, hfresh, hmore⟩
  · have hfail' : fd = -1 := hfail
    rw [if_pos hfail', if_pos hfail']
    exact .inl ⟨hfail', hsame, rfl, rfl⟩
  · have hok' : fd ≠ -1 := hok
    have hfresh' : fd ∉ inUse s.world := hfresh
    -- What is not in use is not held.
    have hfilter : (held s.calls).filter (fun x => x.1 ≠ fd) = held s.calls :=
      List.filter_eq_self.mpr fun x hx => decide_eq_true fun heq => hfresh' (heq ▸ h.live x hx)
    rw [if_neg hok', if_neg hok', hfilter]
    exact .inr ⟨hok', hfresh', hmore, rfl, rfl⟩

/-- A lookup opens the file, and the handle has the descriptor. -/
theorem Inv.step_lookup (hd : IsDescriptors env inUse) (h : Inv inUse w₀ s) {i : FileIdx}
    (hi : i.val ∈ s.exports) :
    Inv inUse w₀ (s.step env (.lookup i)) ∧ opened (s.step env (.lookup i)).calls =
      opened s.calls + (if (s.mem.reopen env s.world i).1 = -1 then 0 else 1) ∧
    (s.step env (.lookup i)).exports = s.exports := by
  obtain ⟨hinUse, hfd, hname⟩ := lookup_handles hd s i
  have hexports : (s.step env (.lookup i)).exports = s.exports := by
    rw [FileRun.step, created_eq_nil (wp_lookup (m := s.mem) (w := s.world) (h := i) hd).1,
      List.nil_append]
  have hlookups : (s.step env (.lookup i)).lookups = i :: s.lookups := rfl
  have hcreated : ∀ j ∈ (s.step env (.lookup i)).exports,
      (s.step env (.lookup i)).mem.slots.inUse[j]? = some HandleState.created := by
    rw [hinUse, hexports]
    exact h.created
  have hgiven : ∀ j ∈ (s.step env (.lookup i)).lookups,
      j.val ∈ (s.step env (.lookup i)).exports := by
    rw [hlookups, hexports]
    exact List.forall_mem_cons.mpr ⟨hi, h.lookups⟩
  have hloaded : ∀ j ∉ (s.step env (.lookup i)).lookups, (s.step env (.lookup i)).mem.fd j = 0 := by
    rw [hlookups]
    intro j hj
    obtain ⟨hji, hj⟩ := not_or.mp (mt List.mem_cons.mpr hj)
    rw [hfd, if_neg hji]
    exact h.loaded j hj
  -- The file of another export that was looked up is held still.
  have hother (j : FileIdx) (hj : j ∈ (s.step env (.lookup i)).lookups) (hji : j ≠ i)
      (hne : s.mem.fd j ≠ -1) : (s.mem.fd j, s.mem.filename j) ∈ held s.calls :=
    h.file j ((List.mem_cons.mp hj).resolve_left hji) hne
  rcases h.lookup_held hd i with ⟨hfail, huse, hheld, hopened⟩ | ⟨hok, hfresh, huse, hheld, hopened⟩
  · refine ⟨⟨hcreated, hgiven, ?_, hloaded, ?_, ?_, ?_, ?_⟩, by
      rw [if_pos hfail, hopened, Nat.add_zero], hexports⟩
    · intro j hj hne
      rw [hfd] at hne ⊢
      rw [hname, hheld]
      split_ifs at hne ⊢ with hji
      · exact absurd hfail hne
      · exact hother j hj hji hne
    · rw [hheld, huse]
      exact h.live
    · rw [hheld]
      exact h.valid
    · rw [hheld, hopened]
      exact h.count
    · rw [hheld, huse]
      exact h.stdin
  · refine ⟨⟨hcreated, hgiven, ?_, hloaded, ?_, ?_, ?_, ?_⟩, by rw [if_neg hok, hopened], hexports⟩
    · intro j hj hne
      rw [hfd] at hne ⊢
      rw [hname, hheld]
      split_ifs at hne ⊢ with hji
      · rw [hji]
        exact List.mem_cons_self
      · exact List.mem_cons_of_mem _ (hother j hj hji hne)
    · rw [hheld, huse]
      exact List.forall_mem_cons.mpr ⟨Set.mem_insert _ _,
        fun x hx => Set.mem_insert_of_mem _ (h.live x hx)⟩
    · rw [hheld]
      exact List.forall_mem_cons.mpr ⟨hok, h.valid⟩
    · rw [hheld, hopened, List.length_cons, h.count]
    · intro hzero
      obtain ⟨huse0, hheld0⟩ := h.stdin hzero
      rw [hheld, huse]
      exact ⟨Set.mem_insert_of_mem _ huse0,
        List.forall_mem_cons.mpr ⟨fun heq => hfresh (heq ▸ huse0), hheld0⟩⟩

/-! ### Runs -/

/-- An operation that needs no descriptor, or is ready. -/
theorem ready_transfer {i : FileIdx} (hop : op.export? = some i) (hlookup : op ≠ .lookup i) :
    Ready env s op ↔ (op.Moves → Ready.Opened s i) := by
  cases op with
  | create => cases hop
  | lookup i' =>
    cases hop
    exact absurd rfl hlookup
  | read i' rounds buf count offset flags =>
    cases hop
    exact or_iff_not_imp_left
  | write i' rounds buf count offset flags =>
    cases hop
    exact or_iff_not_imp_left
  | flush i' flags =>
    cases hop
    exact ⟨fun h _ => h, fun h => h trivial⟩

/-- One operation: the invariant is kept, and no more descriptors are held than there are exports if
it is ready; it is tidy if it is ready, and the converse. -/
theorem Inv.step (hd : IsDescriptors env inUse) (h : Inv inUse w₀ s) (hop : Given s op)
    (hbound : (held s.calls).length ≤ s.exports.length) :
    Inv inUse w₀ (s.step env op) ∧ (Ready env s op → Tidy env s op) ∧
      (0 ∈ inUse w₀ → Tidy env s op → Ready env s op) := by
  cases hexport : op.export? with
  | none =>
    cases op with
    | lookup | read | write | flush => cases hexport
    | create filename c =>
      obtain ⟨hinv, hheld, hexports⟩ := h.step_create env filename c
      refine ⟨hinv, fun _ => ⟨nofun, ?_⟩, fun _ _ => trivial⟩
      rw [hheld]
      exact Nat.le_trans hbound hexports
  | some i =>
    have hi : i.val ∈ s.exports := hop i (by rw [hexport]; exact rfl)
    by_cases hlookup : op = .lookup i
    · subst hlookup
      obtain ⟨hinv, hopened, hexports⟩ := h.step_lookup hd hi
      have hcount := h.count
      rw [← hinv.count] at hopened
      refine ⟨hinv, fun hready => ⟨?_, ?_⟩, fun _ htidy => ?_⟩
      · obtain ⟨-, -, flags, x, htrace, -⟩ := wp_lookup (m := s.mem) (w := s.world) (h := i) hd
        rw [htrace]
        simp [FileCall.fd?]
      · rw [hexports, hopened]
        split_ifs with hfail
        · omega
        · have := hready.resolve_left hfail
          omega
      · have hbound' := htidy.bound
        rw [hexports, hopened] at hbound'
        split_ifs at hbound' with hfail
        · exact .inl hfail
        · exact .inr (by omega)
    · obtain ⟨hinv, hheld, hexports⟩ := h.step_transfer hd hexport hlookup
      obtain ⟨-, ⟨-, -, huses⟩, hnil⟩ := wp_transfer (m := s.mem) (w := s.world) hd hexport hlookup
      rw [ready_transfer hexport hlookup]
      refine ⟨hinv, fun hready => ⟨?_, ?_⟩, fun hzero htidy hmoves => ?_⟩
      · rw [hexport]
        rintro i' ⟨⟩ e he fd hfd
        have hmoves : op.Moves := by
          by_contra hno
          rw [hnil.mp hno] at he
          cases he
        cases (huses e he).symm.trans hfd
        exact h.file i (hready hmoves).1 (hready hmoves).2
      · rw [hheld, hexports]
        exact hbound
      · obtain ⟨e, he⟩ : ∃ e, e ∈ calls (op.prog.run env s.mem s.world).trace := by
          obtain ⟨x, hx⟩ := List.exists_mem_of_ne_nil _ (mt hnil.mpr (not_not_intro hmoves))
          exact ⟨x.1, List.mem_map_of_mem hx⟩
        have hfd : (s.mem.fd i, s.mem.filename i) ∈ held s.calls :=
          htidy.uses i (by rw [hexport]; exact rfl) e he _ (huses e he)
        refine ⟨?_, h.valid _ hfd⟩
        by_contra hno
        exact (h.stdin hzero).2 _ hfd (h.loaded i hno)

/-- **When a run of the file plugin is tidy**: whatever is created, looked up, read, written and
flushed, if every operation is ready then every operation is tidy. If descriptor `0` is in use when
the run starts, every operation is ready if every operation is tidy. -/
theorem descriptors_tidy_iff (hd : IsDescriptors env inUse) (bytes : ℕ → UInt8)
    (w : σ) (ops : List FileOp) (hops : Runs.Always (FileRun.step env) Given (.start bytes w) ops) :
    (Runs.Always (FileRun.step env) (Ready env) (.start bytes w) ops →
      Runs.Always (FileRun.step env) (Tidy env) (.start bytes w) ops) ∧
    (0 ∈ inUse w → Runs.Always (FileRun.step env) (Tidy env) (.start bytes w) ops →
      Runs.Always (FileRun.step env) (Ready env) (.start bytes w) ops) := by
  have hstart : Inv inUse w (.start bytes w) ∧
      (held (FileRun.start bytes w).calls).length ≤ (FileRun.start bytes w).exports.length :=
    ⟨inv_start bytes w, Nat.le_refl 0⟩
  constructor
  · intro hready
    refine Runs.Always.mono (fun s => Inv inUse w s ∧ (held s.calls).length ≤ s.exports.length) ?_
      hstart (hops.and hready)
    rintro s op ⟨hinv, hbound⟩ ⟨hop, hop'⟩
    obtain ⟨hinv', htidy, -⟩ := hinv.step hd hop hbound
    exact ⟨htidy hop', hinv', (htidy hop').bound⟩
  · intro hzero htidy
    refine Runs.Always.mono (fun s => Inv inUse w s ∧ (held s.calls).length ≤ s.exports.length) ?_
      hstart (hops.and htidy)
    rintro s op ⟨hinv, hbound⟩ ⟨hop, hop'⟩
    obtain ⟨hinv', -, hready⟩ := hinv.step hd hop hbound
    exact ⟨hready hzero hop', hinv', hop'.bound⟩

end Invariant

namespace Sample

/-- An operating system that opens whatever it is asked to. The state are the descriptors in use. -/
def opener : Env FileCall FileResp (List ℤ) := fun w e => match e with
  | .openFile .. => (w.foldr max 0 + 1, (w.foldr max 0 + 1) :: w)
  | .closeFile fd => ((0 : ℤ), w.filter fun fd' => fd' ≠ fd)
  | .fdatasync _ => ((0 : ℤ), w)
  | .fstat _ => (some 1, w)
  | .pread _ count _ => (some (List.replicate count 0), w)
  | .pwrite _ data _ => (some data.length, w)

theorem le_foldr_max {w : List ℤ} {fd : ℤ} (h : fd ∈ w) : fd ≤ w.foldr max 0 := by
  induction w with
  | nil => cases h
  | cons x w ih =>
    rcases List.mem_cons.mp h with rfl | h
    · exact Int.le_max_left _ _
    · exact Int.le_trans (ih h) (Int.le_max_right _ _)

theorem foldr_max_nonneg (w : List ℤ) : 0 ≤ w.foldr max 0 := by
  induction w with
  | nil => exact Int.le_refl 0
  | cons x w ih => exact Int.le_trans ih (Int.le_max_right _ _)

theorem isDescriptors_opener : IsDescriptors opener fun w => { fd | fd ∈ w } where
  openFile := fun w filename flags => by
    have hnonneg := foldr_max_nonneg w
    refine .inr ⟨?_, fun hmem => ?_, ?_⟩
    · show w.foldr max 0 + 1 ≠ -1
      omega
    · have := le_foldr_max (show w.foldr max 0 + 1 ∈ w from hmem)
      omega
    · ext fd
      exact List.mem_cons
  closeFile := fun w fd => by
    ext fd'
    simp [opener]
  keeps := fun w e hopen hclose => by
    cases e with
    | openFile filename flags => exact absurd rfl (hopen filename flags)
    | closeFile fd => exact absurd rfl (hclose fd)
    | fstat | fdatasync | pread | pwrite => rfl

/-- A run that starts with the standard descriptors. -/
def booted : FileRun (List ℤ) := .start (fun _ => 0) [0, 1, 2]

/-- An export is created, looked up, and read. -/
def reading : List FileOp := [.create [97] .zero, .lookup first, .read first 8 0 8 0 0]

theorem given_reading : Runs.Always (FileRun.step opener) Given booted reading :=
  ⟨nofun, by rintro h ⟨⟩; decide +kernel, by rintro h ⟨⟩; decide +kernel, trivial⟩

theorem descriptors_tidy_iff_opener :
    (Runs.Always (FileRun.step opener) (Ready opener) booted reading →
      Runs.Always (FileRun.step opener) (Tidy opener) booted reading) ∧
    (0 ∈ { fd : ℤ | fd ∈ [0, 1, 2] } →
      Runs.Always (FileRun.step opener) (Tidy opener) booted reading →
      Runs.Always (FileRun.step opener) (Ready opener) booted reading) :=
  descriptors_tidy_iff isDescriptors_opener (fun _ => 0) [0, 1, 2] reading given_reading

/-- An export is created, and looked up twice. -/
def relooking : List FileOp := [.create [97] .zero, .lookup first, .lookup first]

/-- An export is created, and read. -/
def hasty : List FileOp := [.create [97] .zero, .read first 8 0 8 0 0]

/-- **The second lookup of an export leaks a descriptor**, and before the first one the export is
read from the standard input. -/
theorem descriptors_not_tidy :
    (Runs.Always (FileRun.step opener) Given booted relooking ∧
      ¬ Runs.Always (FileRun.step opener) (Tidy opener) booted relooking) ∧
    Runs.Always (FileRun.step opener) Given booted hasty ∧
      ¬ Runs.Always (FileRun.step opener) (Tidy opener) booted hasty := by
  refine ⟨⟨⟨nofun, by rintro h ⟨⟩; decide +kernel, by rintro h ⟨⟩; decide +kernel, trivial⟩, ?_⟩,
    ⟨nofun, by rintro h ⟨⟩; decide +kernel, trivial⟩, ?_⟩
  · rintro ⟨-, -, htidy, -⟩
    exact absurd htidy.bound (by decide +kernel)
  · rintro ⟨-, htidy, -⟩
    have huses := htidy.uses first rfl (.pread 0 8 0) (by decide +kernel) 0 rfl
    exact absurd huses (by decide +kernel)

end Sample

end LwNBD.FilePlugin
