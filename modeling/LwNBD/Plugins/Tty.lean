import LwNBD.Core.Types
import LwNBD.Data.Ring
import LwNBD.Data.Runs
import LwNBD.Resumption.Rules
import Mathlib.Data.List.GetD

/-!
# The tty plugin

`src/plugins/tty/tty.c`: what is written to the terminal goes into a ring of `TTY_SIZE` bytes, and
clients read it from there. Both positions count up; a read waits until there is enough data, a
write waits for nothing.

## The model

* `TtyMem` — `ringbuffer` and the positions. `int64_t` has no meaning past its largest number, and
  neither has a copy that is not inside the array.
* `TtyCall` — the calls of the event flag, which answer nothing, and the copies, so that they can be
  spoken of.
* `ttyWrite`, `nbdttyPread` — the functions. `size_t` has 32 bits. The loop in which a read waits
  goes round while there is not enough data.
* `Keeps`, `Fits` — what is expected of a write or a read; that there is room for it.

## What is proved

* `ring_kept_iff` — all calls of a run do as expected if and only if there is room for all of them.
* `tty_fifo` — what was read is what was written first.
-/

namespace LwNBD.Tty

open Resumption

/-! ### The functions -/

/-- `TTY_SIZE`. -/
def TTY_SIZE : ℕ := 4096

/-- `EF_TTY_TRANSFER_IDLE`. -/
def EF_TTY_TRANSFER_IDLE : UInt32 := 0

/-- `EF_TTY_TRANSFER_BUSY`. -/
def EF_TTY_TRANSFER_BUSY : UInt32 := 1

/-- `EF_TTY_TRANSFER_DATA`. -/
def EF_TTY_TRANSFER_DATA : UInt32 := 2

/-- What is seen of a function. -/
inductive TtyCall where
  /-- `WaitEventFlag`. -/
  | waitEventFlag (bits : UInt32)
  /-- `SetEventFlag`. -/
  | setEventFlag (bits : UInt32)
  /-- `len` bytes are copied to `ringbuffer + start`. -/
  | copyIn (start : ℤ) (len : ℕ)
  /-- `len` bytes are copied from `ringbuffer + start`. -/
  | copyOut (start : ℤ) (len : ℕ)
  deriving DecidableEq

/-- The static variables. -/
structure TtyMem where
  /-- `ringbuffer`, of `TTY_SIZE + 1` bytes. -/
  ringbuffer : ℕ → UInt8
  /-- `rwhence`. -/
  rwhence : ℤ
  /-- `wwhence`. -/
  wwhence : ℤ

/-- The variables as the loader leaves them. -/
def TtyMem.start : TtyMem := ⟨fun _ => 0, 0, 0⟩

/-- A function of the plugin. -/
abbrev TtyProg (α : Type) := Prog TtyMem TtyCall (fun _ => Unit) α

/-- The range is inside `ringbuffer`. -/
def Inside (start : ℤ) (len : ℕ) : Prop := 0 ≤ start ∧ start + len ≤ TTY_SIZE + 1

instance (start : ℤ) (len : ℕ) : Decidable (Inside start len) := inferInstanceAs (Decidable (_ ∧ _))

/-- `memcpy(ringbuffer + start, buf, len)`. -/
def copyIn (start : ℤ) (buf : ℕ → UInt8) (len : UInt32) : TtyProg Unit := do
  Prog.perform (TtyCall.copyIn start len.toNat)
  if Inside start len.toNat then
    Prog.modify fun m => { m with ringbuffer := overlay m.ringbuffer start.toNat len.toNat buf }
  else .halt .undefined

/-- `memcpy(buf, ringbuffer + start, len)`: the bytes that are copied. -/
def copyOut (start : ℤ) (len : UInt32) : TtyProg Bytes := do
  Prog.perform (TtyCall.copyOut start len.toNat)
  if Inside start len.toNat then do
    let m ← Prog.read
    pure (stretch m.ringbuffer start.toNat len.toNat)
  else .halt .undefined

/-- A number is added to an `int64_t`. -/
def addInt64 (x : ℤ) (n : UInt32) : TtyProg ℤ :=
  if x + n.toNat < 2 ^ 63 then pure (x + n.toNat) else .halt .undefined

/-- The copies of `tty_write`, in two parts if the bytes go round the end. -/
def writeParts (pos : ℤ) (buf : ℕ → UInt8) (size : UInt32) : TtyProg Unit :=
  if (.ofInt pos : UInt32) + size > .ofNat TTY_SIZE then do
    let sz : ℤ := TTY_SIZE - pos
    copyIn pos buf (.ofInt sz)
    copyIn 0 (fun i => buf (sz.toNat + i)) (size - .ofInt sz)
  else copyIn pos buf size

/-- `tty_write`. -/
def ttyWrite (buf : ℕ → UInt8) (size : UInt32) : TtyProg ℤ := do
  let pos := (← Prog.read).wwhence.tmod TTY_SIZE
  Prog.perform (TtyCall.waitEventFlag EF_TTY_TRANSFER_IDLE)
  Prog.perform (TtyCall.setEventFlag EF_TTY_TRANSFER_BUSY)
  writeParts pos buf size
  let wwhence ← addInt64 (← Prog.read).wwhence size
  Prog.modify fun m => { m with wwhence := wwhence }
  Prog.perform (TtyCall.setEventFlag EF_TTY_TRANSFER_DATA)
  pure 0

/-- A round of the loop in which `nbdtty_pread` waits for data. -/
def waitRound (count : UInt32) (_ : Unit) : TtyProg (Ctl Unit Unit) := do
  Prog.perform (TtyCall.waitEventFlag EF_TTY_TRANSFER_DATA)
  Prog.perform (TtyCall.setEventFlag EF_TTY_TRANSFER_BUSY)
  let m ← Prog.read
  if (← addInt64 m.rwhence count) > m.wwhence then do
    Prog.perform (TtyCall.setEventFlag EF_TTY_TRANSFER_IDLE)
    pure (.next ())
  else pure (.done ())

/-- The copies of `nbdtty_pread`. -/
def readParts (pos : ℤ) (count : UInt32) : TtyProg Bytes :=
  if (.ofInt pos : UInt32) + count > .ofNat TTY_SIZE then do
    let sz : ℤ := TTY_SIZE - pos
    let data ← copyOut pos (.ofInt sz)
    let data' ← copyOut 0 (count - .ofInt sz)
    pure (data ++ data')
  else copyOut pos count

/-- `nbdtty_pread`, with what it stores in `buf`. It looks at neither the handle nor the offset nor
the flags. -/
def nbdttyPread (fuel : ℕ) (count : UInt32) : TtyProg (ℤ × Bytes) := do
  let pos := (← Prog.read).rwhence.tmod TTY_SIZE
  Prog.loop fuel (waitRound count) ()
  let data ← readParts pos count
  let rwhence ← addInt64 (← Prog.read).rwhence count
  Prog.modify fun m => { m with rwhence := rwhence }
  let m ← Prog.read
  Prog.perform (TtyCall.setEventFlag (if m.rwhence < m.wwhence then EF_TTY_TRANSFER_DATA
    else EF_TTY_TRANSFER_IDLE))
  pure (0, data)

/-! ### What is expected -/

/-- A call of one of the functions. -/
inductive TtyOp where
  /-- `tty_write`. -/
  | write (buf : ℕ → UInt8) (size : UInt32)
  /-- `nbdtty_pread`, which waits for up to `rounds + 1` rounds. -/
  | pread (rounds : ℕ) (count : UInt32)

/-- The call, and the bytes that it returns. -/
def TtyOp.prog : TtyOp → TtyProg Bytes
  | .write buf size => do
    let _ ← ttyWrite buf size
    pure []
  | .pread rounds count => do
    let r ← nbdttyPread (rounds + 1) count
    pure r.2

/-- The event flag answers nothing. -/
def flag : Env TtyCall (fun _ => Unit) Unit := fun _ _ => ((), ())

/-- The call is made. -/
def TtyOp.run (op : TtyOp) (m : TtyMem) : Result TtyMem TtyCall (fun _ => Unit) Unit Bytes :=
  op.prog.run flag m ()

/-- What it leaves. -/
def step (m : TtyMem) (op : TtyOp) : TtyMem := (op.run m).mem

/-- The unread bytes fit in the ring. -/
def Level (m : TtyMem) : Prop := 0 ≤ m.wwhence - m.rwhence ∧ m.wwhence - m.rwhence ≤ TTY_SIZE

/-- What is expected of a call. -/
structure Keeps (m : TtyMem) (op : TtyOp) : Prop where
  /-- Every step of it has a meaning. -/
  defined : (op.run m).out ≠ .halt .undefined
  /-- What it copies is inside the ring. -/
  inside : ∀ (start : ℤ) (len : ℕ), .copyIn start len ∈ calls (op.run m).trace ∨
    .copyOut start len ∈ calls (op.run m).trace → Inside start len
  /-- It does not overwrite a byte that was not read. -/
  unread : ∀ (start : ℤ) (len : ℕ), .copyIn start len ∈ calls (op.run m).trace →
    ∀ p, m.rwhence ≤ p → p < m.wwhence → ¬ (start ≤ p % TTY_SIZE ∧ p % TTY_SIZE < start + len)
  /-- The unread bytes fit afterwards. -/
  level : Level (step m op)

/-- There is room: a write is no longer than what is left of the ring, and no position gets past the
largest number of its type. -/
def Fits (m : TtyMem) : TtyOp → Prop
  | .write _ size => m.wwhence - m.rwhence + size.toNat ≤ TTY_SIZE ∧ m.wwhence + size.toNat < 2 ^ 63
  | .pread _ count => m.rwhence + count.toNat < 2 ^ 63

/-! ### What the functions do -/

section Calls

variable {σ : Type} {env : Env TtyCall (fun _ => Unit) σ} {m : TtyMem} {w₀ : σ}

theorem tmod_TTY_SIZE (w : ℕ) : (w : ℤ).tmod TTY_SIZE = (w % TTY_SIZE : ℕ) :=
  (Int.ofNat_tmod w TTY_SIZE).symm

theorem toNat_ofInt {n : ℕ} (h : n < 2 ^ 32) : (UInt32.ofInt n).toNat = n := by
  rw [UInt32.ofInt]
  have hmod : ((n : ℤ) % 2 ^ 32).toNat = n := by omega
  rw [hmod, UInt32.toNat_ofNat']
  exact Nat.mod_eq_of_lt h

/-- The position in the ring and a number of bytes that fits in it are added. -/
theorem lt_add_iff {w : ℕ} {k : UInt32} (hk : k.toNat ≤ TTY_SIZE) :
    ((.ofInt (w % TTY_SIZE : ℕ) : UInt32) + k > .ofNat TTY_SIZE) ↔
    TTY_SIZE < w % TTY_SIZE + k.toNat := by
  have hlt : w % TTY_SIZE < TTY_SIZE := Nat.mod_lt _ (by decide)
  have hsize : (UInt32.ofNat TTY_SIZE).toNat = TTY_SIZE := by decide
  rw [gt_iff_lt, UInt32.lt_iff_toNat_lt, UInt32.toNat_add,
    toNat_ofInt (Nat.lt_trans hlt (by decide)), hsize]
  rw [Nat.mod_eq_of_lt (Nat.lt_of_lt_of_le (Nat.add_lt_add_of_lt_of_le hlt hk) (by decide))]

theorem toNat_rest (w : ℕ) :
    (UInt32.ofInt (TTY_SIZE - (w % TTY_SIZE : ℕ))).toNat = TTY_SIZE - w % TTY_SIZE ∧
    ((TTY_SIZE : ℤ) - (w % TTY_SIZE : ℕ)).toNat = TTY_SIZE - w % TTY_SIZE := by
  have hlt : w % TTY_SIZE < TTY_SIZE := Nat.mod_lt _ (by decide)
  have hcast : (TTY_SIZE : ℤ) - (w % TTY_SIZE : ℕ) = (TTY_SIZE - w % TTY_SIZE : ℕ) := by omega
  rw [hcast]
  exact ⟨toNat_ofInt (Nat.lt_of_le_of_lt (Nat.sub_le _ _) (by decide)), Int.toNat_natCast _⟩

theorem toNat_sub_rest {w : ℕ} {k : UInt32} (h : TTY_SIZE < w % TTY_SIZE + k.toNat) :
    (k - UInt32.ofInt (TTY_SIZE - (w % TTY_SIZE : ℕ))).toNat =
    k.toNat - (TTY_SIZE - w % TTY_SIZE) := by
  obtain ⟨hrest, -⟩ := toNat_rest w
  rw [UInt32.toNat_sub_of_le, hrest]
  rw [UInt32.le_iff_toNat_le, hrest]
  omega

/-- A call of the event flag. -/
def TtyCall.IsFlag : TtyCall → Prop
  | .waitEventFlag _ | .setEventFlag _ => True
  | .copyIn .. | .copyOut .. => False

/-- A copy leaves the positions, and has a meaning or not. -/
theorem wp_copyIn_or (start : ℤ) (buf : ℕ → UInt8) (len : UInt32) :
    wp env (copyIn start buf len) (fun o m' _ _ => (o = .ret () ∨ o = .halt .undefined) ∧
      m'.rwhence = m.rwhence ∧ m'.wwhence = m.wwhence) m w₀ := by
  unfold copyIn
  rw [wp_bind, wp_perform, Post.seq_ret]
  split_ifs
  · exact ⟨.inl rfl, rfl, rfl⟩
  · exact ⟨.inr rfl, rfl, rfl⟩

theorem wp_writeParts_or (pos : ℤ) (buf : ℕ → UInt8) (size : UInt32) :
    wp env (writeParts pos buf size) (fun o m' _ _ => (o = .ret () ∨ o = .halt .undefined) ∧
      m'.rwhence = m.rwhence ∧ m'.wwhence = m.wwhence) m w₀ := by
  rw [writeParts]
  split_ifs
  · rw [wp_bind]
    refine wp_mono env ?_ (wp_copyIn_or _ _ _)
    rintro o m' w' t ⟨rfl | rfl, hr, hw⟩
    · rw [Post.seq_ret]
      refine wp_mono env ?_ (wp_copyIn_or _ _ _)
      rintro o m'' w'' t' ⟨ho, hr', hw'⟩
      exact ⟨ho, hr'.trans hr, hw'.trans hw⟩
    · exact ⟨.inr rfl, hr, hw⟩
  · exact wp_copyIn_or _ _ _

/-- A write that is done has counted its bytes. -/
theorem wp_ttyWrite_or (buf : ℕ → UInt8) (size : UInt32) :
    wp env (ttyWrite buf size) (fun o m' _ _ => o = .halt .undefined ∨ o = .ret 0 ∧
      m'.rwhence = m.rwhence ∧ m'.wwhence = m.wwhence + size.toNat ∧
      m.wwhence + size.toNat < 2 ^ 63) m w₀ := by
  unfold ttyWrite
  rw [wp_bind, wp_read, Post.seq_ret, wp_bind, wp_perform, Post.seq_ret, wp_bind, wp_perform,
    Post.seq_ret, wp_bind]
  refine wp_mono env ?_ (wp_writeParts_or _ _ _)
  rintro o m' w' t ⟨rfl | rfl, hr, hw⟩
  · rw [Post.seq_ret, wp_bind, wp_read, Post.seq_ret, addInt64, hw]
    split_ifs with hlt
    · exact .inr ⟨rfl, hr, rfl, hlt⟩
    · exact .inl rfl
  · exact .inl rfl

theorem wp_copyIn (start : ℕ) {buf : ℕ → UInt8} {len : UInt32} (h : start + len.toNat ≤ TTY_SIZE) :
    wp env (copyIn start buf len) (fun o m' _ t => o = .ret () ∧
      m' = { m with ringbuffer := overlay m.ringbuffer start len.toNat buf } ∧
      calls t = [.copyIn start len.toNat]) m w₀ := by
  have hin : Inside start len.toNat := ⟨by omega, by omega⟩
  unfold copyIn
  rw [wp_bind, wp_perform, Post.seq_ret, if_pos hin]
  exact ⟨rfl, rfl, rfl⟩

theorem wp_copyOut (start : ℕ) {len : UInt32} (h : start + len.toNat ≤ TTY_SIZE) :
    wp env (copyOut start len) (fun o m' _ t => o = .ret (stretch m.ringbuffer start len.toNat) ∧
      m' = m ∧ calls t = [.copyOut start len.toNat]) m w₀ := by
  have hin : Inside start len.toNat := ⟨by omega, by omega⟩
  unfold copyOut
  rw [wp_bind, wp_perform, Post.seq_ret, if_pos hin]
  exact ⟨rfl, rfl, rfl⟩

/-- Bytes that fit in the ring are put there. -/
theorem wp_writeParts (w : ℕ) (buf : ℕ → UInt8) {size : UInt32} (hsize : size.toNat ≤ TTY_SIZE) :
    wp env (writeParts (w % TTY_SIZE : ℕ) buf size) (fun o m' _ t => o = .ret () ∧
      m' = { m with ringbuffer := Ring.put TTY_SIZE m.ringbuffer w size.toNat buf } ∧
      calls t = (Ring.parts TTY_SIZE w size.toNat).map fun part => .copyIn part.1 part.2) m w₀ := by
  have hlt : w % TTY_SIZE < TTY_SIZE := Nat.mod_lt _ (by decide)
  obtain ⟨hrest, hrest'⟩ := toNat_rest w
  rw [writeParts, Ring.put, Ring.parts]
  by_cases hparts : TTY_SIZE < w % TTY_SIZE + size.toNat
  · have hsub := toNat_sub_rest hparts
    rw [if_pos ((lt_add_iff hsize).mpr hparts), if_pos hparts, if_pos hparts, wp_bind]
    refine wp_mono env ?_ (wp_copyIn _ (by rw [hrest]; omega))
    rintro o m' w' t ⟨rfl, rfl, ht⟩
    rw [Post.seq_ret]
    refine wp_mono env ?_ (wp_copyIn 0 (by rw [hsub]; omega))
    rintro o m' w' t' ⟨rfl, rfl, ht'⟩
    refine ⟨rfl, ?_, ?_⟩
    · rw [hsub, hrest, hrest']
    · rw [calls_append, ht, ht', hsub, hrest]
      rfl
  · rw [if_neg (mt (lt_add_iff hsize).mp hparts), if_neg hparts, if_neg hparts]
    refine wp_mono env ?_ (wp_copyIn _ (Nat.not_lt.mp hparts))
    rintro o m' w' t ⟨rfl, rfl, ht⟩
    exact ⟨rfl, rfl, ht⟩

/-- Bytes that are in the ring are taken. -/
theorem wp_readParts (r : ℕ) {count : UInt32} (hcount : count.toNat ≤ TTY_SIZE) :
    wp env (readParts (r % TTY_SIZE : ℕ) count) (fun o m' _ t =>
      o = .ret (Ring.take TTY_SIZE m.ringbuffer r count.toNat) ∧ m' = m ∧
      calls t = (Ring.parts TTY_SIZE r count.toNat).map fun part => .copyOut part.1 part.2)
      m w₀ := by
  have hlt : r % TTY_SIZE < TTY_SIZE := Nat.mod_lt _ (by decide)
  obtain ⟨hrest, -⟩ := toNat_rest r
  rw [readParts, Ring.take, Ring.parts]
  by_cases hparts : TTY_SIZE < r % TTY_SIZE + count.toNat
  · have hsub := toNat_sub_rest hparts
    rw [if_pos ((lt_add_iff hcount).mpr hparts), if_pos hparts, if_pos hparts, wp_bind]
    refine wp_mono env ?_ (wp_copyOut _ (by rw [hrest]; omega))
    rintro o m' w' t ⟨rfl, rfl, ht⟩
    rw [Post.seq_ret, wp_bind]
    refine wp_mono env ?_ (wp_copyOut 0 (by rw [hsub]; omega))
    rintro o m' w' t' ⟨rfl, rfl, ht'⟩
    rw [Post.seq_ret, wp_pure]
    refine ⟨?_, rfl, ?_⟩
    · rw [hsub, hrest]
    · rw [calls_append, calls_append, ht, ht', hsub, hrest]
      rfl
  · rw [if_neg (mt (lt_add_iff hcount).mp hparts), if_neg hparts, if_neg hparts]
    refine wp_mono env ?_ (wp_copyOut _ (Nat.not_lt.mp hparts))
    rintro o m' w' t ⟨rfl, rfl, ht⟩
    exact ⟨rfl, rfl, ht⟩

/-- A write for which there is room. -/
theorem wp_ttyWrite {w : ℕ} (hw : m.wwhence = w) (buf : ℕ → UInt8) {size : UInt32}
    (hsize : size.toNat ≤ TTY_SIZE) (hlt : m.wwhence + size.toNat < 2 ^ 63) :
    wp env (ttyWrite buf size) (fun o m' _ t => o = .ret 0 ∧
      m' = ⟨Ring.put TTY_SIZE m.ringbuffer w size.toNat buf, m.rwhence, m.wwhence + size.toNat⟩ ∧
      ∀ e ∈ calls t, e.IsFlag ∨ ∃ part ∈ Ring.parts TTY_SIZE w size.toNat,
      e = .copyIn part.1 part.2) m w₀ := by
  unfold ttyWrite
  rw [wp_bind, wp_read, Post.seq_ret, wp_bind, wp_perform, Post.seq_ret, wp_bind, wp_perform,
    Post.seq_ret, wp_bind, hw, tmod_TTY_SIZE]
  refine wp_mono env ?_ (wp_writeParts w buf hsize)
  rintro o m' w' t ⟨rfl, rfl, ht⟩
  rw [Post.seq_ret, wp_bind, wp_read, Post.seq_ret, addInt64, if_pos hlt, wp_bind, wp_pure,
    Post.seq_ret, wp_bind, wp_modify, Post.seq_ret, wp_bind, wp_perform, Post.seq_ret, wp_pure, hw]
  refine ⟨rfl, rfl, fun e he => ?_⟩
  simp only [calls_append, calls_cons, calls_nil, ht, List.mem_append, List.mem_cons, List.mem_map,
    List.not_mem_nil, or_false, false_or] at he
  rcases he with rfl | rfl | ⟨part, hpart, rfl⟩ | rfl
  · exact .inl trivial
  · exact .inl trivial
  · exact .inr ⟨part, hpart, rfl⟩
  · exact .inl trivial

theorem wp_waitRound (count : UInt32) : wp env (waitRound count ()) (fun o m' _ t => m' = m ∧
    (∀ e ∈ calls t, e.IsFlag) ∧ o = if m.rwhence + count.toNat < 2 ^ 63 then
      .ret (if m.wwhence < m.rwhence + count.toNat then .next () else .done ())
      else .halt .undefined) m w₀ := by
  unfold waitRound
  rw [wp_bind, wp_perform, Post.seq_ret, wp_bind, wp_perform, Post.seq_ret, wp_bind, wp_read,
    Post.seq_ret, wp_bind, addInt64]
  by_cases hlt : m.rwhence + count.toNat < 2 ^ 63
  · rw [if_pos hlt, wp_pure, Post.seq_ret, if_pos hlt]
    by_cases hmore : m.wwhence < m.rwhence + count.toNat
    · rw [if_pos hmore, if_pos hmore, wp_bind, wp_perform, Post.seq_ret, wp_pure]
      exact ⟨rfl, by simp [TtyCall.IsFlag], rfl⟩
    · rw [if_neg hmore, if_neg hmore, wp_pure]
      exact ⟨rfl, by simp [TtyCall.IsFlag], rfl⟩
  · rw [if_neg hlt, wp_halt, if_neg hlt]
    exact ⟨rfl, by simp [TtyCall.IsFlag], rfl⟩

/-- Waiting for data: the loop is left if there is enough, and goes round for ever if there is
not. -/
theorem wp_wait (count : UInt32) (n : ℕ) :
    wp env (Prog.loop n (waitRound count) ()) (fun o m' _ t => m' = m ∧ (∀ e ∈ calls t, e.IsFlag) ∧
    o = if n = 0 ∨ m.rwhence + count.toNat < 2 ^ 63 ∧
    m.wwhence < m.rwhence + count.toNat then .halt .fuel
      else if m.rwhence + count.toNat < 2 ^ 63 then .ret () else .halt .undefined) m w₀ := by
  induction n generalizing w₀ with
  | zero => exact ⟨rfl, List.forall_mem_nil _, rfl⟩
  | succ n ih =>
    rw [wp_loop_succ]
    refine wp_mono env ?_ (wp_waitRound count)
    rintro o m' w' t ⟨rfl, hflags, ho⟩
    by_cases hlt : m'.rwhence + count.toNat < 2 ^ 63
    · rw [if_pos hlt] at ho
      by_cases hmore : m'.wwhence < m'.rwhence + count.toNat
      · rw [if_pos hmore] at ho
        subst ho
        rw [Post.round_next]
        refine wp_mono env ?_ ih
        rintro o m'' w'' t' ⟨rfl, hflags', rfl⟩
        refine ⟨rfl, calls_forall_append hflags hflags', ?_⟩
        rw [if_pos (.inr ⟨hlt, hmore⟩), if_pos (.inr ⟨hlt, hmore⟩)]
      · rw [if_neg hmore] at ho
        subst ho
        rw [Post.round_done]
        refine ⟨rfl, hflags, ?_⟩
        rw [if_neg (not_or.mpr ⟨Nat.succ_ne_zero n, fun h => hmore h.2⟩), if_pos hlt]
    · rw [if_neg hlt] at ho
      subst ho
      rw [Post.round_halt]
      refine ⟨rfl, hflags, ?_⟩
      rw [if_neg (not_or.mpr ⟨Nat.succ_ne_zero n, fun h => hlt h.1⟩), if_neg hlt]

/-- A read: it has no meaning if its position gets too far, waits for ever if there is not enough
data, and else takes the bytes. -/
theorem wp_nbdttyPread {r : ℕ} (hr : m.rwhence = r) {count : UInt32}
    (hlevel : m.wwhence - m.rwhence ≤ TTY_SIZE) (rounds : ℕ) :
    wp env (nbdttyPread (rounds + 1) count) (fun o m' _ t =>
      (∀ e ∈ calls t, e.IsFlag ∨ ∃ part ∈ Ring.parts TTY_SIZE r count.toNat,
      count.toNat ≤ TTY_SIZE ∧
        e = .copyOut part.1 part.2) ∧
      (¬ m.rwhence + count.toNat < 2 ^ 63 ∧ o = .halt .undefined ∨
        m.rwhence + count.toNat < 2 ^ 63 ∧ m.wwhence < m.rwhence + count.toNat ∧
        o = .halt .fuel ∧ m' = m ∨ m.rwhence + count.toNat < 2 ^ 63 ∧
        m.rwhence + count.toNat ≤ m.wwhence ∧
          o = .ret (0, Ring.take TTY_SIZE m.ringbuffer r count.toNat) ∧
          m' = { m with rwhence := m.rwhence + count.toNat })) m w₀ := by
  unfold nbdttyPread
  rw [wp_bind, wp_read, Post.seq_ret, wp_bind, hr, tmod_TTY_SIZE]
  refine wp_mono env ?_ (wp_wait count _)
  rintro o m' w' t ⟨rfl, hflags, ho⟩
  have hflags' : ∀ e ∈ calls t, e.IsFlag ∨ ∃ part ∈ Ring.parts TTY_SIZE r count.toNat,
      count.toNat ≤ TTY_SIZE ∧ e = .copyOut part.1 part.2 := fun e he => .inl (hflags e he)
  rw [hr] at hlevel
  by_cases hlt : (r : ℤ) + count.toNat < 2 ^ 63
  · by_cases hmore : m'.wwhence < r + count.toNat
    · rw [hr, if_pos (.inr ⟨hlt, hmore⟩)] at ho
      subst ho
      rw [Post.seq_halt]
      exact ⟨hflags', .inr (.inl ⟨hlt, hmore, rfl, rfl⟩)⟩
    · have hcount : count.toNat ≤ TTY_SIZE := by omega
      rw [hr, if_neg (not_or.mpr ⟨Nat.succ_ne_zero rounds, fun h => hmore h.2⟩), if_pos hlt] at ho
      subst ho
      rw [Post.seq_ret, wp_bind]
      refine wp_mono env ?_ (wp_readParts r hcount)
      rintro o m'' w'' t' ⟨rfl, rfl, ht'⟩
      rw [Post.seq_ret, wp_bind, wp_read, Post.seq_ret, addInt64, hr, if_pos hlt, wp_bind,
        wp_pure, Post.seq_ret, wp_bind, wp_modify, Post.seq_ret, wp_bind, wp_read, Post.seq_ret,
        wp_bind, wp_perform, Post.seq_ret, wp_pure]
      refine ⟨fun e he => ?_, .inr (.inr ⟨hlt, Int.not_lt.mp hmore, rfl, rfl⟩)⟩
      simp only [calls_append, calls_cons, calls_nil, ht', List.mem_append,
        List.mem_cons, List.mem_map, List.not_mem_nil, or_false, false_or] at he
      rcases he with he | ⟨part, hpart, rfl⟩ | rfl
      · exact hflags' e he
      · exact .inr ⟨part, hpart, hcount, rfl⟩
      · exact .inl trivial
  · rw [hr, if_neg (not_or.mpr ⟨Nat.succ_ne_zero rounds, fun h => hlt h.1⟩), if_neg hlt] at ho
    subst ho
    rw [Post.seq_halt]
    exact ⟨hflags', .inl ⟨hlt, rfl⟩⟩

end Calls

/-! ### Room -/

section Room

variable {m : TtyMem} {buf : ℕ → UInt8} {size : UInt32} {op : TtyOp}

/-- What holds along a run: the positions are not negative, and the unread bytes fit in the ring. -/
def InRange (m : TtyMem) : Prop := 0 ≤ m.rwhence ∧ Level m

theorem inRange_start : InRange .start := ⟨Int.le_refl 0, by decide, by decide⟩

/-- A write that has a meaning has counted its bytes. -/
theorem write_defined (h : ((TtyOp.write buf size).run m).out ≠ .halt .undefined) :
    ((TtyOp.write buf size).run m).out = .ret [] ∧ (step m (.write buf size)).rwhence = m.rwhence ∧
    (step m (.write buf size)).wwhence = m.wwhence + size.toNat ∧
    m.wwhence + size.toNat < 2 ^ 63 := by
  refine (?_ : wp flag (TtyOp.write buf size).prog (fun o m' _ _ => o ≠ .halt .undefined →
    o = .ret [] ∧ m'.rwhence = m.rwhence ∧ m'.wwhence = m.wwhence + size.toNat ∧
    m.wwhence + size.toNat < 2 ^ 63) m ()) h
  rw [TtyOp.prog, wp_bind]
  refine wp_mono flag ?_ (wp_ttyWrite_or buf size)
  rintro o m' w' t (rfl | ⟨rfl, hr, hw, hlt⟩)
  · exact fun hdef => absurd rfl hdef
  · exact fun _ => ⟨rfl, hr, hw, hlt⟩

theorem write_fits (buf : ℕ → UInt8) {w : ℕ} (hw : m.wwhence = w) (hsize : size.toNat ≤ TTY_SIZE)
    (hlt : m.wwhence + size.toNat < 2 ^ 63) :
    ((TtyOp.write buf size).run m).out = .ret [] ∧
    step m (.write buf size) =
      ⟨Ring.put TTY_SIZE m.ringbuffer w size.toNat buf, m.rwhence, m.wwhence + size.toNat⟩ ∧
    ∀ e ∈ calls ((TtyOp.write buf size).run m).trace,
      e.IsFlag ∨ ∃ part ∈ Ring.parts TTY_SIZE w size.toNat, e = .copyIn part.1 part.2 := by
  refine (?_ : wp flag (TtyOp.write buf size).prog (fun o m' _ t => o = .ret [] ∧
    m' = ⟨Ring.put TTY_SIZE m.ringbuffer w size.toNat buf, m.rwhence, m.wwhence + size.toNat⟩ ∧
    ∀ e ∈ calls t, e.IsFlag ∨ ∃ part ∈ Ring.parts TTY_SIZE w size.toNat, e = .copyIn part.1 part.2)
      m ())
  rw [TtyOp.prog, wp_bind]
  refine wp_mono flag ?_ (wp_ttyWrite hw buf hsize hlt)
  rintro o m' w' t ⟨rfl, rfl, hcalls⟩
  rw [Post.seq_ret, wp_pure, Post.after_apply, List.append_nil]
  exact ⟨rfl, rfl, hcalls⟩

theorem pread_cases {r : ℕ} (hr : m.rwhence = r) (hlevel : m.wwhence - m.rwhence ≤ TTY_SIZE)
    (rounds : ℕ) (count : UInt32) :
    (∀ e ∈ calls ((TtyOp.pread rounds count).run m).trace, e.IsFlag ∨
      ∃ part ∈ Ring.parts TTY_SIZE r count.toNat, count.toNat ≤ TTY_SIZE ∧
      e = .copyOut part.1 part.2) ∧
    (¬ m.rwhence + count.toNat < 2 ^ 63 ∧
      ((TtyOp.pread rounds count).run m).out = .halt .undefined ∨ m.rwhence + count.toNat < 2 ^ 63 ∧
      m.wwhence < m.rwhence + count.toNat ∧
        ((TtyOp.pread rounds count).run m).out = .halt .fuel ∧ step m (.pread rounds count) = m ∨
      m.rwhence + count.toNat < 2 ^ 63 ∧ m.rwhence + count.toNat ≤ m.wwhence ∧
        ((TtyOp.pread rounds count).run m).out =
        .ret (Ring.take TTY_SIZE m.ringbuffer r count.toNat) ∧
        step m (.pread rounds count) = { m with rwhence := m.rwhence + count.toNat }) := by
  refine (?_ : wp flag (TtyOp.pread rounds count).prog (fun o m' _ t =>
    (∀ e ∈ calls t, e.IsFlag ∨
      ∃ part ∈ Ring.parts TTY_SIZE r count.toNat, count.toNat ≤ TTY_SIZE ∧
      e = .copyOut part.1 part.2) ∧
    (¬ m.rwhence + count.toNat < 2 ^ 63 ∧ o = .halt .undefined ∨
      m.rwhence + count.toNat < 2 ^ 63 ∧ m.wwhence < m.rwhence + count.toNat ∧
      o = .halt .fuel ∧ m' = m ∨ m.rwhence + count.toNat < 2 ^ 63 ∧
        m.rwhence + count.toNat ≤ m.wwhence ∧
        o = .ret (Ring.take TTY_SIZE m.ringbuffer r count.toNat) ∧
        m' = { m with rwhence := m.rwhence + count.toNat })) m ())
  rw [TtyOp.prog, wp_bind]
  refine wp_mono flag ?_ (wp_nbdttyPread hr hlevel rounds)
  rintro o m' w' t ⟨hcalls, ⟨hlt, rfl⟩ | ⟨hlt, hmore, rfl, rfl⟩ | ⟨hlt, hle, rfl, rfl⟩⟩
  · exact ⟨hcalls, .inl ⟨hlt, rfl⟩⟩
  · exact ⟨hcalls, .inr (.inl ⟨hlt, hmore, rfl, rfl⟩)⟩
  · rw [Post.seq_ret, wp_pure, Post.after_apply, List.append_nil]
    exact ⟨hcalls, .inr (.inr ⟨hlt, hle, rfl, rfl⟩)⟩

theorem part_inside {w k : ℕ} {part : ℕ × ℕ} (hk : k ≤ TTY_SIZE)
    (hpart : part ∈ Ring.parts TTY_SIZE w k) : Inside part.1 part.2 := by
  have hend := (Ring.mem_parts (by decide) hk hpart).1
  exact ⟨Int.natCast_nonneg _, by omega⟩

/-- Parts for which there is room have no byte that was not read. -/
theorem part_unread {r w k : ℕ} {part : ℕ × ℕ} (hroom : w + k ≤ r + TTY_SIZE) (hk : k ≤ TTY_SIZE)
    (hpart : part ∈ Ring.parts TTY_SIZE w k) {p : ℤ} (hr : r ≤ p) (hw : p < w) :
    ¬ ((part.1 : ℤ) ≤ p % TTY_SIZE ∧ p % TTY_SIZE < part.1 + part.2) := by
  obtain ⟨q, rfl⟩ := Int.eq_ofNat_of_zero_le (Int.le_trans (Int.natCast_nonneg r) hr)
  have hcell : ((q : ℤ) % TTY_SIZE) = (q % TTY_SIZE : ℕ) := (Int.natCast_mod q TTY_SIZE).symm
  rw [hcell]
  rintro ⟨hle, hlt⟩
  obtain ⟨j, hj, heq⟩ :=
    (Ring.mem_parts (by decide) hk hpart).2 (q % TTY_SIZE) (by omega) (by omega)
  exact Ring.not_overrun hroom (Int.ofNat_le.mp hr) (Int.ofNat_lt.mp hw) hj heq

/-- A write for which there is room does as expected. -/
theorem keeps_write (hm : InRange m) (h : Fits m (.write buf size)) :
    Keeps m (.write buf size) ∧ InRange (step m (.write buf size)) := by
  obtain ⟨hnonneg, hlow, hhigh⟩ := hm
  obtain ⟨hroom, hlt⟩ := h
  obtain ⟨r, hr⟩ := Int.eq_ofNat_of_zero_le hnonneg
  obtain ⟨w, hw⟩ := Int.eq_ofNat_of_zero_le (show 0 ≤ m.wwhence by omega)
  have hsize : size.toNat ≤ TTY_SIZE := by omega
  obtain ⟨hout, hstep, hcalls⟩ := write_fits buf hw hsize hlt
  have hlevel : Level (step m (.write buf size)) := by
    rw [hstep]
    exact ⟨by dsimp only; omega, by dsimp only; omega⟩
  refine ⟨⟨?_, ?_, ?_, hlevel⟩, ?_, hlevel⟩
  · rw [hout]
    exact nofun
  · rintro start len (hmem | hmem)
    · obtain hflag | ⟨part, hpart, heq⟩ := hcalls _ hmem
      · cases hflag
      · cases heq
        exact part_inside hsize hpart
    · obtain hflag | ⟨part, hpart, heq⟩ := hcalls _ hmem
      · cases hflag
      · cases heq
  · intro start len hmem p hrp hpw
    obtain hflag | ⟨part, hpart, heq⟩ := hcalls _ hmem
    · cases hflag
    · cases heq
      exact part_unread (r := r) (by omega) hsize hpart (hr ▸ hrp) (hw ▸ hpw)
  · rw [hstep]
    exact hnonneg

/-- A read does as expected, while its position has a meaning. -/
theorem keeps_pread {rounds : ℕ} {count : UInt32} (hm : InRange m)
    (h : Fits m (.pread rounds count)) :
    Keeps m (.pread rounds count) ∧ InRange (step m (.pread rounds count)) := by
  obtain ⟨hnonneg, hlow, hhigh⟩ := hm
  obtain ⟨r, hr⟩ := Int.eq_ofNat_of_zero_le hnonneg
  obtain ⟨hcalls, hcases⟩ := pread_cases hr hhigh rounds count
  have hcopyIn (start : ℤ) (len : ℕ) :
      .copyIn start len ∉ calls ((TtyOp.pread rounds count).run m).trace := by
    intro hmem
    obtain hflag | ⟨part, hpart, -, heq⟩ := hcalls _ hmem
    · cases hflag
    · cases heq
  have hcopyOut (start : ℤ) (len : ℕ)
      (hmem : .copyOut start len ∈ calls ((TtyOp.pread rounds count).run m).trace) :
      Inside start len := by
    obtain hflag | ⟨part, hpart, hcount, heq⟩ := hcalls _ hmem
    · cases hflag
    · cases heq
      exact part_inside hcount hpart
  -- Whether it has waited in vain or not, only `rwhence` is moved.
  have hkeeps (hout : ((TtyOp.pread rounds count).run m).out ≠ .halt .undefined)
      (hin : InRange (step m (.pread rounds count))) :
      Keeps m (.pread rounds count) ∧ InRange (step m (.pread rounds count)) :=
    ⟨⟨hout, fun start len hmem => hmem.elim (fun hmem => absurd hmem (hcopyIn start len))
      (hcopyOut start len), fun start len hmem => absurd hmem (hcopyIn start len), hin.2⟩, hin⟩
  rcases hcases with ⟨hlt, -⟩ | ⟨-, -, hout, hstep⟩ | ⟨-, hle, hout, hstep⟩
  · exact absurd h hlt
  · refine hkeeps (by rw [hout]; exact nofun) ?_
    rw [hstep]
    exact ⟨hnonneg, hlow, hhigh⟩
  · refine hkeeps (by rw [hout]; exact nofun) ?_
    rw [hstep]
    exact ⟨by dsimp only; omega, by dsimp only; omega, by dsimp only; omega⟩

/-- A call for which there is room does as expected. -/
theorem keeps_of_fits (hm : InRange m) (h : Fits m op) : Keeps m op ∧ InRange (step m op) := by
  cases op with
  | write buf size => exact keeps_write hm h
  | pread rounds count => exact keeps_pread hm h

/-- There is room for a call that does as expected. -/
theorem fits_of_keeps (hm : InRange m) (h : Keeps m op) : Fits m op ∧ InRange (step m op) := by
  have hfits : Fits m op := by
    obtain ⟨hnonneg, -, hhigh⟩ := hm
    cases op with
    | write buf size =>
      obtain ⟨-, hr, hw, hlt⟩ := write_defined h.defined
      have hlevel := h.level.2
      rw [hr, hw] at hlevel
      exact ⟨by omega, hlt⟩
    | pread rounds count =>
      obtain ⟨r, hr⟩ := Int.eq_ofNat_of_zero_le hnonneg
      obtain ⟨-, ⟨-, hout⟩ | ⟨hlt, -⟩ | ⟨hlt, -⟩⟩ := pread_cases hr hhigh rounds count
      · exact absurd hout h.defined
      · exact hlt
      · exact hlt
  exact ⟨hfits, (keeps_of_fits hm hfits).2⟩

end Room

/-- **When the ring loses no unread data**: in any sequence of writes and reads, all calls do as
expected if and only if there is room for all of them. -/
theorem ring_kept_iff (ops : List TtyOp) :
    Runs.Always step Keeps .start ops ↔ Runs.Always step Fits .start ops :=
  ⟨Runs.Always.mono InRange (fun _ _ => fits_of_keeps) inRange_start,
    Runs.Always.mono InRange (fun _ _ => keeps_of_fits) inRange_start⟩

/-! ### First in, first out -/

/-- What a call hands over to be written. -/
def TtyOp.written : TtyOp → Bytes
  | .write buf size => stretch buf 0 size.toNat
  | .pread .. => []

/-- A run so far: the variables, all bytes that were written, and all that were read. -/
structure TtyRun where
  /-- The variables. -/
  mem : TtyMem
  /-- The bytes that were written. -/
  written : Bytes
  /-- The bytes that were read. -/
  returned : Bytes

/-- What can be reached by calls that complete, where the number of unread bytes never exceeds
`TTY_SIZE`. -/
inductive Reached : TtyRun → Prop where
  /-- Nothing was called. -/
  | start : Reached ⟨.start, [], []⟩
  /-- A call completes. -/
  | call {s : TtyRun} (op : TtyOp) (data : Bytes) : Reached s → (op.run s.mem).out = .ret data →
    (step s.mem op).wwhence - (step s.mem op).rwhence ≤ TTY_SIZE →
    Reached ⟨step s.mem op, s.written ++ op.written, s.returned ++ data⟩

/-- The ring is a queue: it holds what was written and not read, and what was read is what was
written first. -/
structure Queue (s : TtyRun) (r w : ℕ) : Prop where
  /-- `rwhence`. -/
  rwhence : s.mem.rwhence = r
  /-- `wwhence`. -/
  wwhence : s.mem.wwhence = w
  /-- No more was read than written. -/
  le : r ≤ w
  /-- What was not read fits in the ring. -/
  fits : w ≤ r + TTY_SIZE
  /-- All bytes are counted. -/
  length : s.written.length = w
  /-- What was read. -/
  returned : s.returned = s.written.take r
  /-- What was not. -/
  holds : Ring.Holds TTY_SIZE s.mem.ringbuffer (fun p => s.written.getD p 0) r w

section Queue

variable {s : TtyRun} {r w : ℕ} {data : Bytes}

theorem queue_start : Queue ⟨.start, [], []⟩ 0 0 :=
  ⟨rfl, rfl, Nat.le_refl 0, Nat.zero_le _, rfl, rfl, fun p _ hp => absurd hp (Nat.not_lt_zero p)⟩

theorem Queue.write (h : Queue s r w) {buf : ℕ → UInt8} {size : UInt32}
    (hout : ((TtyOp.write buf size).run s.mem).out = .ret data)
    (hlevel : (step s.mem (.write buf size)).wwhence - (step s.mem (.write buf size)).rwhence ≤
      TTY_SIZE) :
    Queue ⟨step s.mem (.write buf size), s.written ++ (TtyOp.write buf size).written,
      s.returned ++ data⟩ r (w + size.toNat) := by
  obtain ⟨hnil, hr, hw, hlt⟩ := write_defined (by rw [hout]; exact nofun)
  have hle := h.le
  have hlen := h.length
  rw [hr, hw, h.rwhence, h.wwhence] at hlevel
  obtain ⟨-, hstep, -⟩ := write_fits buf h.wwhence (by omega : size.toNat ≤ TTY_SIZE) hlt
  cases hout.symm.trans hnil
  have hwritten : (s.written ++ stretch buf 0 size.toNat).length = w + size.toNat := by
    simp [stretch, hlen]
  have hold (p : ℕ) (hp : p < w) :
      s.written.getD p 0 = (s.written ++ stretch buf 0 size.toNat).getD p 0 := by
    rw [List.getD_append _ _ _ _ (by omega)]
  have hnew (i : ℕ) (hi : i < size.toNat) : (s.written ++ stretch buf 0 size.toNat).getD
      (w + i) 0 = buf i := by
    rw [List.getD_append_right _ _ _ _ (by omega), hlen, Nat.add_sub_cancel_left]
    simp [stretch, hi]
  refine ⟨hr.trans h.rwhence, ?_, by omega, by omega, hwritten, ?_, ?_⟩
  · rw [hw, h.wwhence]
    rfl
  · rw [List.append_nil, h.returned]
    exact (List.take_append_of_le_length (by omega)).symm
  · rw [hstep]
    have hstream : Ring.Holds TTY_SIZE s.mem.ringbuffer
        (fun p => (s.written ++ stretch buf 0 size.toNat).getD p 0) r w :=
      fun p hrp hpw => (h.holds p hrp hpw).trans (hold p hpw)
    exact hstream.put (by omega) hle hnew

theorem Queue.pread (h : Queue s r w) {rounds : ℕ} {count : UInt32}
    (hout : ((TtyOp.pread rounds count).run s.mem).out = .ret data) :
    Queue ⟨step s.mem (.pread rounds count), s.written ++ (TtyOp.pread rounds count).written,
      s.returned ++ data⟩ (r + count.toNat) w := by
  have hle := h.le
  have hfits := h.fits
  have hlen := h.length
  have hlevel : s.mem.wwhence - s.mem.rwhence ≤ TTY_SIZE := by rw [h.wwhence, h.rwhence]; omega
  obtain ⟨-, ⟨-, hout'⟩ | ⟨-, -, hout', -⟩ | ⟨-, hroom, hout', hstep⟩⟩ :=
    pread_cases h.rwhence hlevel rounds count
  · cases hout.symm.trans hout'
  · cases hout.symm.trans hout'
  · cases hout.symm.trans hout'
    rw [h.rwhence, h.wwhence] at hroom
    rw [hstep]
    refine ⟨?_, h.wwhence, by omega, by omega, ?_, ?_, ?_⟩
    · dsimp only
      rw [h.rwhence]
      rfl
    · rw [TtyOp.written, List.append_nil, hlen]
    · rw [h.returned, h.holds.take_eq (by omega) (by omega), stretch_getD (by omega),
        TtyOp.written, List.append_nil, List.take_add]
    · rw [TtyOp.written, List.append_nil]
      exact h.holds.drop (Nat.le_add_right r _)

/-- The ring is a queue whatever is reached. -/
theorem Reached.queue (h : Reached s) : ∃ r w, Queue s r w := by
  induction h with
  | start => exact ⟨0, 0, queue_start⟩
  | call op data _ hout hlevel ih =>
    obtain ⟨r, w, hqueue⟩ := ih
    cases op with
    | write buf size => exact ⟨r, w + size.toNat, hqueue.write hout hlevel⟩
    | pread rounds count => exact ⟨r + count.toNat, w, hqueue.pread hout⟩

end Queue

/-- **First in, first out**: if the number of unread bytes never exceeds `TTY_SIZE`, what the reads
have returned is the first `rwhence` bytes of what was written. -/
theorem tty_fifo {s : TtyRun} (h : Reached s) :
    s.returned = s.written.take s.mem.rwhence.toNat := by
  obtain ⟨r, w, hqueue⟩ := h.queue
  rw [hqueue.rwhence]
  exact hqueue.returned

namespace Sample

/-- **A write that is longer than the ring** overruns it. -/
theorem ring_not_kept : ¬ Runs.Always step Keeps .start [.write (fun _ => 0) 4097] := by
  rintro ⟨hkeeps, -⟩
  exact absurd (fits_of_keeps inRange_start hkeeps).1.1 (by decide)

/-- A call is made, and what it returns is noted. -/
def called (s : TtyRun) (op : TtyOp) : TtyRun :=
  ⟨step s.mem op, s.written ++ op.written, s.returned ++ match (op.run s.mem).out with
    | .ret data => data
    | .halt _ => []⟩

theorem reached_called {s : TtyRun} {op : TtyOp} (h : Reached s)
    (hout : ∀ e, (op.run s.mem).out ≠ .halt e)
    (hlevel : (step s.mem op).wwhence - (step s.mem op).rwhence ≤ TTY_SIZE) :
    Reached (called s op) := by
  unfold called
  cases hret : (op.run s.mem).out with
  | ret data => exact h.call op data hret hlevel
  | halt e => exact absurd hret (hout e)

/-- The ring, when all of it but two bytes was written and read. -/
def nearEnd : TtyRun := called (called ⟨.start, [], []⟩ (.write (fun _ => 0) 4094)) (.pread 0 4094)

/-- Four bytes go round the end of the ring: two are before it, and two at the start. -/
def echo : TtyRun := called (called nearEnd (.write (fun i => .ofNat (97 + i)) 4)) (.pread 0 4)

theorem not_halt {o : Outcome Bytes}
    (h : (match o with | .ret _ => true | .halt _ => false) = true) : ∀ e, o ≠ .halt e := by
  rintro e rfl
  cases h

theorem reached_echo : Reached echo := by
  have hstart : Reached (called ⟨.start, [], []⟩ (.write (fun _ => 0) 4094)) :=
    reached_called .start (not_halt (by decide +kernel)) (by decide +kernel)
  have hnear : Reached nearEnd :=
    reached_called hstart (not_halt (by decide +kernel)) (by decide +kernel)
  have hwritten : Reached (called nearEnd (.write (fun i => .ofNat (97 + i)) 4)) :=
    reached_called hnear (not_halt (by decide +kernel)) (by decide +kernel)
  exact reached_called hwritten (not_halt (by decide +kernel)) (by decide +kernel)

/-- The bytes that wrap are read in order. -/
theorem tty_fifo_echo : echo.returned = echo.written.take echo.mem.rwhence.toNat ∧
    echo.returned.drop 4094 = [97, 98, 99, 100] := ⟨tty_fifo reached_echo, by decide +kernel⟩

end Sample

end LwNBD.Tty
