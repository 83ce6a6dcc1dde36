import LwNBD.Core.Types
import LwNBD.Data.Blocks
import LwNBD.Data.Endless
import LwNBD.Resumption.Rules

/-!
# The character generator

`src/servers/chargen.c`, over the event table of `src/src/servers.c`: a client is sent the same line
again and again. Whenever its socket is writable, what is left of the line is written; `write` may
take any part of it.

## The model

* `FdState`, `ServerMem` — the event table. It is `static` in a header, so `servers.c` and
  `chargen.c` each have one: callbacks are registered in the first, and the second is told times.
* `eventWatchWritable`, `eventRemove`, `chargenOnWritable`, `serviceChargenNew` — the functions.
  There is no meaning to an entry outside the table, a state that is not there, or bytes that are
  not in the array.
* `dispatchWritable` — a socket is writable: what is registered for it is called. The loop that does
  so is not there.
* `Reached` — sockets are handed to the service and become writable, in any order; the same number
  may come again.
* `Streams` — what is expected of a socket: a call writes the rest of the line, and what was taken
  is no more and no less than the line, again and again.

## What is proved

* `chargen_streams` — all sockets are served as expected, whatever `write` returns.
-/

namespace LwNBD.Chargen

open Resumption

/-! ### The event table -/

/-- `MAXFD`. -/
def MAXFD : ℕ := 1024

/-- The callbacks. -/
inductive EventCb where
  /-- `chargen_on_writable`. -/
  | chargenOnWritable
  deriving DecidableEq

/-- `struct fd_state`. -/
structure FdState where
  /-- `want_read`. -/
  wantRead : ℤ
  /-- `want_write`. -/
  wantWrite : ℤ
  /-- `on_read`. -/
  onRead : Option EventCb
  /-- `on_write`. -/
  onWrite : Option EventCb
  /-- `userdata`: the number of a block. -/
  userdata : Option ℕ
  /-- `last_activity`. -/
  lastActivity : ℤ

/-- An entry as the loader leaves it, and as `event_remove` does. -/
def FdState.zero : FdState := ⟨0, 0, none, none, none, 0⟩

/-- `struct chargen_state`. -/
structure ChargenState where
  /-- `ptr`, from the start of `chargen_line`. -/
  ptr : ℕ
  /-- `len`. -/
  len : ℕ

/-- The memory. -/
structure ServerMem where
  /-- `efds` of `servers.c`. -/
  efds : Vector FdState MAXFD
  /-- `efds` of `chargen.c`. -/
  chargenEfds : Vector FdState MAXFD
  /-- What `malloc` returned. -/
  heap : Blocks ChargenState

namespace ServerMem

/-- `efds[i]`, in `servers.c`. -/
def entry (m : ServerMem) (i : Fin MAXFD) : FdState := m.efds.get i

/-- It is written. -/
def setEntry (m : ServerMem) (i : Fin MAXFD) (e : FdState) : ServerMem :=
  { m with efds := m.efds.set i e i.isLt }

/-- `efds[i].last_activity` is written, in `chargen.c`. -/
def setActivity (m : ServerMem) (i : Fin MAXFD) (now : ℤ) : ServerMem :=
  { m with chargenEfds :=
    m.chargenEfds.set i { m.chargenEfds.get i with lastActivity := now } i.isLt }

/-- The blocks are others. -/
def setHeap (m : ServerMem) (heap : Blocks ChargenState) : ServerMem := { m with heap := heap }

variable (m : ServerMem) (i j : Fin MAXFD) (e : FdState) (now : ℤ) (heap : Blocks ChargenState)

variable {m i j e} in
@[simp] theorem entry_setEntry_self : (m.setEntry i e).entry i = e := Vector.getElem_set_self i.isLt

variable {m i j e} in
theorem entry_setEntry_ne (h : j ≠ i) : (m.setEntry i e).entry j = m.entry j :=
  Vector.getElem_set_ne i.isLt j.isLt fun hval => h (Fin.ext hval.symm)

@[simp] theorem heap_setEntry : (m.setEntry i e).heap = m.heap := rfl
@[simp] theorem entry_setActivity : (m.setActivity i now).entry j = m.entry j := rfl
@[simp] theorem heap_setActivity : (m.setActivity i now).heap = m.heap := rfl
@[simp] theorem entry_setHeap : (m.setHeap heap).entry j = m.entry j := rfl
@[simp] theorem heap_setHeap : (m.setHeap heap).heap = heap := rfl

end ServerMem

/-- The memory as the loader leaves it. -/
def ServerMem.start : ServerMem := ⟨.replicate _ .zero, .replicate _ .zero, []⟩

/-- The calls of the operating system and the C library. -/
inductive ServerCall where
  /-- `write`. -/
  | write (fd : ℤ) (data : Bytes)
  /-- `close`. -/
  | close (fd : ℤ)
  /-- `time`. -/
  | time
  /-- `malloc`. -/
  | malloc
  deriving DecidableEq

/-- The answers to a call: `write` returns `-1` or a count, and `malloc` may fail. -/
abbrev ServerResp : ServerCall → Type
  | .write _ data => Sent data.length
  | .close _ => ℤ
  | .time => ℤ
  | .malloc => Bool

/-- A function. -/
abbrev ServerProg (α : Type) := Prog ServerMem ServerCall ServerResp α

/-- `efds[fd]`, as an index. -/
def entryAt (fd : ℤ) : ServerProg (Fin MAXFD) :=
  if h : 0 ≤ fd ∧ fd < MAXFD then pure ⟨fd.toNat, by omega⟩ else .halt .undefined

/-- `event_watch_writable`. -/
def eventWatchWritable (fd : ℤ) (cb : EventCb) (userdata : Option ℕ) : ServerProg Unit := do
  let i ← entryAt fd
  let now ← Prog.perform ServerCall.time
  Prog.modify fun m => m.setEntry i
    { m.entry i with wantWrite := 1, onWrite := some cb, userdata := userdata, lastActivity := now }

/-- `event_remove`. -/
def eventRemove (fd : ℤ) : ServerProg Unit := do
  let i ← entryAt fd
  Prog.modify fun m => m.setEntry i .zero

/-! ### The service -/

/-- `chargen_line`, as an array of characters. -/
def chargenLine : Bytes :=
  ("!\"#$%&'()*+,-./0123456789:;<=>?@ABCDEFGHIJKLMNOPQRSTUVWXYZ[\\]^_`abcdefghijklmnopqrstuvwxyz\x7b|\x7d~\n\x00" :
    String).toList.map Char.toUInt8

/-- The state to which a pointer points. -/
def stateAt (userdata : Option ℕ) : ServerProg (ℕ × ChargenState) := do
  let m ← Prog.read
  match userdata with
  | none => .halt .undefined
  | some p => match m.heap.get p with
    | none => .halt .undefined
    | some st => pure (p, st)

/-- `ptr` and `len` after `n` bytes were written: they go on, or start again when that was the rest
of the line. -/
def ChargenState.wrote (st : ChargenState) (n : ℕ) : ChargenState :=
  if n < st.len then ⟨st.ptr + n, st.len - n⟩ else ⟨0, chargenLine.length - 1⟩

/-- `chargen_on_writable`. -/
def chargenOnWritable (fd : ℤ) (userdata : Option ℕ) : ServerProg Unit := do
  let (p, st) ← stateAt userdata
  if chargenLine.length < st.ptr + st.len then .halt .undefined
  else do
    let n ← Prog.perform (ServerCall.write fd (chargenLine.slice st.ptr st.len))
    if n.1 ≤ 0 then do
      let _ ← Prog.perform (ServerCall.close fd)
      eventRemove fd
      Prog.modify fun m => m.setHeap (m.heap.free p)
    else do
      Prog.modify fun m => m.setHeap (m.heap.put p (st.wrote n.1.toNat))
      let i ← entryAt fd
      let now ← Prog.perform ServerCall.time
      Prog.modify fun m => m.setActivity i now
      eventWatchWritable fd .chargenOnWritable userdata

/-- `service_chargen_new`. -/
def serviceChargenNew (fd : ℤ) : ServerProg Unit := do
  if ← Prog.perform ServerCall.malloc then do
    let m ← Prog.read
    Prog.modify fun m => m.setHeap (m.heap.alloc ⟨0, chargenLine.length - 1⟩)
    eventWatchWritable fd .chargenOnWritable (some m.heap.length)
  else .halt .undefined

/-- A socket is writable: the callback is called that is registered for it. -/
def dispatchWritable (i : Fin MAXFD) : ServerProg Unit := do
  let m ← Prog.read
  match (m.entry i).onWrite with
  | some .chargenOnWritable =>
    if (m.entry i).wantWrite ≠ 0 then chargenOnWritable i (m.entry i).userdata else pure ()
  | none => pure ()

/-! ### Runs -/

variable {σ : Type}

/-- What happens. -/
inductive ChargenOp where
  /-- A socket is handed to the service. -/
  | serve (fd : ℤ)
  /-- A socket is writable. -/
  | writable (i : Fin MAXFD)

/-- What is done then. -/
def ChargenOp.prog : ChargenOp → ServerProg Unit
  | .serve fd => serviceChargenNew fd
  | .writable i => dispatchWritable i

/-- Calls, with their answers. -/
abbrev ServerEvs := List (Event ServerCall ServerResp)

/-- A run so far. -/
structure ChargenRun (σ : Type) where
  /-- The memory. -/
  mem : ServerMem
  /-- The environment. -/
  world : σ
  /-- The calls that were made for each socket since it was handed to the service, if it was. -/
  served : Fin MAXFD → Option ServerEvs

/-- The start. -/
def ChargenRun.start (w : σ) : ChargenRun σ := ⟨.start, w, fun _ => none⟩

/-- What happens is done. -/
def ChargenRun.run (env : Env ServerCall ServerResp σ) (s : ChargenRun σ) (op : ChargenOp) :
    Result ServerMem ServerCall ServerResp σ Unit := op.prog.run env s.mem s.world

/-- What it leaves. -/
def ChargenRun.step (env : Env ServerCall ServerResp σ) (s : ChargenRun σ) (op : ChargenOp) :
    ChargenRun σ where
  mem := (s.run env op).mem
  world := (s.run env op).env
  served := fun j => match op with
    | .serve fd => if fd = j then some (s.run env op).trace else s.served j
    | .writable i => if j = i then (s.served j).map (· ++ (s.run env op).trace) else s.served j

/-- What can be reached: sockets are handed to the service, which takes them, and become
writable. -/
inductive Reached (env : Env ServerCall ServerResp σ) : ChargenRun σ → Prop where
  /-- Nothing happened. -/
  | start (w : σ) : Reached env (.start w)
  /-- The service takes a socket. -/
  | serve {s : ChargenRun σ} (fd : ℤ) : Reached env s → (s.run env (.serve fd)).out = .ret () →
    Reached env (s.step env (.serve fd))
  /-- A socket is writable. -/
  | writable {s : ChargenRun σ} (i : Fin MAXFD) : Reached env s →
      Reached env (s.step env (.writable i))

/-! ### What is expected -/

/-- The bytes that `write` has taken. -/
def accepted (t : ServerEvs) : Bytes := t.flatMap fun
  | ⟨.write _ data, k⟩ => data.take k.1.toNat
  | _ => []

/-- What `write` was called with: the socket and the bytes. -/
def writes (t : ServerEvs) : List (ℤ × Bytes) := t.filterMap fun
  | ⟨.write fd data, _⟩ => some (fd, data)
  | _ => none

/-- A `write` returned no count. -/
def Failed (t : ServerEvs) : Prop :=
  ∃ fd data, ∃ k : Sent data.length, ⟨.write fd data, k⟩ ∈ t ∧ k.1 ≤ 0

/-- The text of `chargen_line`. -/
def chargenText : Bytes := chargenLine.dropLast

/-- The pointer and the length describe a part of the line that is not empty and goes to its end. -/
def ChargenState.IsSuffix (st : ChargenState) : Prop :=
  0 < st.len ∧ st.ptr + st.len = chargenText.length

/-- The socket was closed: the last `write` returned no count, and `close` was called after it. -/
def Closed (i : Fin MAXFD) (t : ServerEvs) : Prop :=
  ∃ (t₁ : ServerEvs) (data : Bytes) (k : Sent data.length) (r : ℤ), t = t₁ ++
    [⟨.write i data, k⟩, ⟨.close i, r⟩] ∧ k.1 ≤ 0 ∧ ¬ Failed t₁

/-- What is expected of a socket that was handed to the service. -/
structure Streams (env : Env ServerCall ServerResp σ) (s : ChargenRun σ) (i : Fin MAXFD)
    (t : ServerEvs) : Prop where
  /-- What was taken is what comes first in the endless repetition of the line. -/
  stream : accepted t = stretch (endless chargenText 0) 0 (accepted t).length
  /-- Until a `write` returns no count, the callback is registered, with a state that is in order,
  and a call of it makes one `write`: of the rest of the line. -/
  goesOn : ¬ Failed t → (s.mem.entry i).wantWrite ≠ 0 ∧
    (s.mem.entry i).onWrite = some .chargenOnWritable ∧ ∃ p st, (s.mem.entry i).userdata = some p ∧
    s.mem.heap.get p = some st ∧ st.IsSuffix ∧
      writes (s.run env (.writable i)).trace = [((i : ℤ), chargenLine.slice st.ptr st.len)]
  /-- After one has, the socket is closed, nothing is registered for it, and nothing more is
  written. -/
  ends : Failed t → Closed i t ∧ (s.mem.entry i).wantRead = 0 ∧ (s.mem.entry i).wantWrite = 0 ∧
    (s.mem.entry i).onRead = none ∧ (s.mem.entry i).onWrite = none ∧
    writes (s.run env (.writable i)).trace = []
  /-- A call has a meaning. -/
  returns : (s.run env (.writable i)).out = .ret ()

/-! ### What the functions do -/

section Calls

variable {env : Env ServerCall ServerResp σ} {m m' : ServerMem} {w : σ} {i j : Fin MAXFD}
  {p n : ℕ} {st : ChargenState} {t t' : ServerEvs} {Q : Post ServerMem ServerCall ServerResp σ Unit}

theorem length_chargenLine : chargenLine.length = 96 := by decide +kernel

theorem length_chargenText : chargenText.length = 95 := by
  rw [chargenText, List.length_dropLast, length_chargenLine]

theorem chargenLine_eq : chargenLine = chargenText ++ [0] := by decide +kernel

@[simp] theorem accepted_append : accepted (t ++ t') = accepted t ++ accepted t' :=
  List.flatMap_append

theorem failed_append : Failed (t ++ t') ↔ Failed t ∨ Failed t' := by
  constructor
  · rintro ⟨fd, data, k, hmem, hk⟩
    rcases List.mem_append.mp hmem with hmem | hmem
    · exact .inl ⟨fd, data, k, hmem, hk⟩
    · exact .inr ⟨fd, data, k, hmem, hk⟩
  · rintro (⟨fd, data, k, hmem, hk⟩ | ⟨fd, data, k, hmem, hk⟩)
    · exact ⟨fd, data, k, List.mem_append_left t' hmem, hk⟩
    · exact ⟨fd, data, k, List.mem_append_right t hmem, hk⟩

/-- A `write` that returned no count has taken nothing. -/
theorem accepted_failed {data : Bytes} {k : Sent data.length} {r : ℤ} (hk : k.1 ≤ 0) :
    accepted [⟨.write i data, k⟩, ⟨.close i, r⟩] = [] := by
  change data.take k.1.toNat ++ [] = []
  rw [Int.toNat_of_nonpos hk, List.take_zero, List.append_nil]

theorem accepted_some {data : Bytes} {k : Sent data.length} {now now' : ℤ} :
    accepted [⟨.write i data, k⟩, ⟨.time, now⟩, ⟨.time, now'⟩] = data.take k.1.toNat :=
  List.append_nil _

theorem not_failed_some {data : Bytes} {k : Sent data.length} {now now' : ℤ} (hk : 0 < k.1) :
    ¬ Failed [⟨.write i data, k⟩, ⟨.time, now⟩, ⟨.time, now'⟩] := by
  rintro ⟨fd', data', k', hmem, hk'⟩
  rcases List.mem_cons.mp hmem with heq | hmem
  · cases heq
    exact absurd hk (Int.not_lt.mpr hk')
  · rcases List.mem_cons.mp hmem with heq | hmem
    · cases heq
    · cases List.mem_singleton.mp hmem

theorem not_failed_new (now : ℤ) : ¬ Failed [⟨.malloc, true⟩, ⟨.time, now⟩] := by
  rintro ⟨fd, data, k, hmem, -⟩
  rcases List.mem_cons.mp hmem with heq | hmem
  · cases heq
  · cases List.mem_singleton.mp hmem

theorem entryAt_fin (i : Fin MAXFD) : entryAt i = pure i := by
  have h : (0 : ℤ) ≤ (i : ℕ) ∧ ((i : ℕ) : ℤ) < MAXFD :=
    ⟨Int.natCast_nonneg _, Int.ofNat_lt.mpr i.isLt⟩
  exact dif_pos h

/-- An entry in which the service has registered its callback, with a state. -/
def FdState.watched (e : FdState) (p : ℕ) (now : ℤ) : FdState :=
  { e with wantWrite := 1, onWrite := some .chargenOnWritable, userdata := some p, lastActivity :=
    now }

theorem wp_eventWatchWritable : wp env (eventWatchWritable i .chargenOnWritable (some p)) Q m w ↔
    Q (.ret ()) (m.setEntry i ((m.entry i).watched p (env w .time).1)) (env w .time).2
      [⟨.time, (env w .time).1⟩] := by
  rw [eventWatchWritable, entryAt_fin, pure_bind]
  exact Iff.rfl

theorem wp_eventRemove : wp env (eventRemove i) Q m w ↔ Q (.ret ()) (m.setEntry i .zero) w [] := by
  rw [eventRemove, entryAt_fin, pure_bind]
  exact Iff.rfl

/-- The state when `n` bytes were taken. -/
def stateAfter (n : ℕ) : ChargenState :=
  ⟨n % chargenText.length, chargenText.length - n % chargenText.length⟩

theorem stateAfter_zero : stateAfter 0 = ⟨0, chargenLine.length - 1⟩ := by
  rw [stateAfter, Nat.zero_mod, Nat.sub_zero, chargenText, List.length_dropLast]

theorem stateAfter_isSuffix (n : ℕ) : (stateAfter n).IsSuffix := by
  have hlt : n % chargenText.length < chargenText.length := by
    rw [length_chargenText]
    exact Nat.mod_lt n (by decide)
  exact ⟨Nat.sub_pos_of_lt hlt, Nat.add_sub_cancel' (Nat.le_of_lt hlt)⟩

/-- The bytes that are written then. -/
def rest (n : ℕ) : Bytes := chargenLine.slice (stateAfter n).ptr (stateAfter n).len

theorem rest_eq (n : ℕ) : rest n = stretch (endless chargenText 0) n (stateAfter n).len := by
  have hend := (stateAfter_isSuffix n).2
  rw [stretch_endless (Nat.le_of_eq hend), rest, chargenLine_eq,
    List.slice_append_left (Nat.le_of_eq hend)]
  rfl

theorem take_rest {k : ℕ} (hk : k ≤ (stateAfter n).len) :
    (rest n).take k = stretch (endless chargenText 0) n k := by rw [rest_eq, take_stretch hk]

/-- The state is that after the bytes that were taken, whether the line is left at its end or
before. -/
theorem stateAfter_wrote {k : ℕ} (hk : k ≤ (stateAfter n).len) :
    (stateAfter n).wrote k = stateAfter (n + k) := by
  have hend := (stateAfter_isSuffix n).2
  have hplace := add_mod_place (o := n) (k := k) (n := chargenText.length)
    (by change (stateAfter n).ptr + k ≤ _; omega)
  have hnext : stateAfter (n + k) =
      ⟨(n + k) % chargenText.length, chargenText.length - (n + k) % chargenText.length⟩ := rfl
  rw [hnext, hplace, ChargenState.wrote]
  change _ = ChargenState.mk
    (if (stateAfter n).ptr + k < chargenText.length then (stateAfter n).ptr + k else 0)
    (chargenText.length - if (stateAfter n).ptr + k < chargenText.length then (stateAfter n).ptr + k
    else 0)
  by_cases hlt : k < (stateAfter n).len
  · rw [if_pos hlt, if_pos (by omega), ← hend, Nat.add_sub_add_left]
  · rw [if_neg hlt, if_neg (by omega), length_chargenLine, length_chargenText]

theorem length_rest (n : ℕ) : (rest n).length = (stateAfter n).len := by
  rw [rest_eq, length_stretch]

theorem toNat_sent_le (k : Sent (rest n).length) : k.1.toNat ≤ (stateAfter n).len := by
  have hle := k.2.2
  have hlen := length_rest n
  omega

theorem wp_stateAt {Q : Post ServerMem ServerCall ServerResp σ (ℕ × ChargenState)}
    (hp : m.heap.get p = some st) : wp env (stateAt (some p)) Q m w ↔ Q (.ret (p, st)) m w [] := by
  rw [stateAt, wp_bind, wp_read, Post.seq_ret]
  dsimp only
  rw [hp]
  exact Iff.rfl

/-- A call of the callback with a state that is in order: `write` returns no count, and the socket
is closed; or it takes some of what is left of the line. -/
theorem wp_chargenOnWritable (hp : m.heap.get p = some (stateAfter n))
    (hfail : ∀ (k : Sent (rest n).length) (r : ℤ) (w' : σ), k.1 ≤ 0 → Q (.ret ())
      ((m.setEntry i .zero).setHeap (m.heap.free p)) w' [⟨.write i (rest n), k⟩, ⟨.close i, r⟩])
    (hsome : ∀ (k : Sent (rest n).length) (now now' : ℤ) (w' : σ), 0 < k.1 → Q (.ret ())
      (((m.setHeap (m.heap.put p (stateAfter (n + k.1.toNat)))).setActivity i now).setEntry i
        ((m.entry i).watched p now')) w' [⟨.write i (rest n), k⟩, ⟨.time, now⟩, ⟨.time, now'⟩]) :
    wp env (chargenOnWritable i (some p)) Q m w := by
  have hend := (stateAfter_isSuffix n).2
  rw [chargenOnWritable, wp_bind, wp_stateAt hp, Post.seq_ret]
  dsimp only
  rw [if_neg (by rw [hend, length_chargenLine, length_chargenText]; decide), ← rest, wp_bind,
    wp_perform, Post.seq_ret]
  obtain ⟨k, w₁⟩ := env w (.write i (rest n))
  dsimp only
  split_ifs with hle
  · rw [wp_bind, wp_perform, Post.seq_ret, wp_bind, wp_eventRemove, Post.seq_ret, wp_modify]
    exact hfail _ _ _ hle
  · rw [entryAt_fin]
    simp only [wp_bind, wp_perform, wp_modify, wp_pure, Post.seq_ret]
    rw [wp_eventWatchWritable, stateAfter_wrote (toNat_sent_le k)]
    exact hsome _ _ _ _ (Int.not_le.mp hle)

end Calls

/-! ### The invariant -/

section Invariant

variable {env : Env ServerCall ServerResp σ} {m m' : ServerMem} {s s' : ChargenRun σ}
  {i j : Fin MAXFD} {p : ℕ} {t t' : ServerEvs}

/-- A socket that is served: its state is that after the bytes that were taken. -/
structure Live (m : ServerMem) (i : Fin MAXFD) (t : ServerEvs) (p : ℕ) : Prop where
  /-- No `write` has returned no count. -/
  unfailed : ¬ Failed t
  /-- The callback is registered. -/
  wantWrite : (m.entry i).wantWrite = 1
  /-- It is that of the service. -/
  onWrite : (m.entry i).onWrite = some .chargenOnWritable
  /-- It is given the state. -/
  userdata : (m.entry i).userdata = some p
  /-- The state. -/
  state : m.heap.get p = some (stateAfter (accepted t).length)

/-- What is kept. -/
structure Inv (s : ChargenRun σ) : Prop where
  /-- What was taken comes first in the endless repetition of the line. -/
  stream : ∀ i t, s.served i = some t →
    accepted t = stretch (endless chargenText 0) 0 (accepted t).length
  /-- A socket is served, or was closed. -/
  state : ∀ i t, s.served i = some t → (∃ p, Live s.mem i t p) ∨ Closed i t ∧ s.mem.entry i = .zero
  /-- Nothing is registered for the others. -/
  unserved : ∀ i, s.served i = none → s.mem.entry i = .zero
  /-- No callback waits for data. -/
  unread : ∀ i, (s.mem.entry i).wantRead = 0 ∧ (s.mem.entry i).onRead = none
  /-- Each socket has its own state. -/
  own : ∀ i j p, (s.mem.entry i).userdata = some p → (s.mem.entry j).userdata = some p → i = j

theorem entry_start (i : Fin MAXFD) : ServerMem.start.entry i = .zero :=
  Vector.getElem_replicate i.isLt

theorem inv_start (w : σ) : Inv (.start w) where
  stream := nofun
  state := nofun
  unserved i _ := entry_start i
  unread i := by
    rw [ChargenRun.start, entry_start]
    exact ⟨rfl, rfl⟩
  own i j p hi := by
    rw [ChargenRun.start, entry_start] at hi
    cases hi

theorem Live.of_entry {e : FdState}
    {now : ℤ} (hentry : m.entry i = e.watched p now) (hok : ¬ Failed t)
    (hstate : m.heap.get p = some (stateAfter (accepted t).length)) : Live m i t p where
  unfailed := hok
  wantWrite := by rw [hentry, FdState.watched]
  onWrite := by rw [hentry, FdState.watched]
  userdata := by rw [hentry, FdState.watched]
  state := hstate

theorem Live.frame (h : Live m j t p) (hentry : m'.entry j = m.entry j)
    (hheap : m'.heap.get p = m.heap.get p) : Live m' j t p where
  unfailed := h.unfailed
  wantWrite := by rw [hentry, h.wantWrite]
  onWrite := by rw [hentry, h.onWrite]
  userdata := by rw [hentry, h.userdata]
  state := by rw [hheap, h.state]

/-- The state that is registered for a socket is there. -/
theorem Inv.get_of_userdata (h : Inv s) (hp : (s.mem.entry i).userdata = some p) :
    ∃ st, s.mem.heap.get p = some st := by
  have hzero (he : s.mem.entry i = .zero) : False := by
    rw [he] at hp
    cases hp
  cases hs : s.served i with
  | none => exact (hzero (h.unserved i hs)).elim
  | some t =>
    rcases h.state i t hs with ⟨q, hlive⟩ | ⟨-, he⟩
    · obtain rfl := Option.some.inj (hp.symm.trans hlive.userdata)
      exact ⟨_, hlive.state⟩
    · exact (hzero he).elim

/-- One socket is served, and the others are left. -/
theorem Inv.update (h : Inv s) (hserved : ∀ j, s'.served j = if j = i then some t else s.served j)
    (hentry : ∀ j, j ≠ i → s'.mem.entry j = s.mem.entry j)
    (hheap : ∀ j p, j ≠ i → (s.mem.entry j).userdata = some p →
      s'.mem.heap.get p = s.mem.heap.get p)
    (hread : (s'.mem.entry i).wantRead = 0 ∧ (s'.mem.entry i).onRead = none)
    (hstream : accepted t = stretch (endless chargenText 0) 0 (accepted t).length)
    (hstate : (∃ p, Live s'.mem i t p ∧ ∀ j, j ≠ i → (s.mem.entry j).userdata ≠ some p) ∨
      Closed i t ∧ s'.mem.entry i = .zero) : Inv s' where
  stream j t' hj := by
    rw [hserved] at hj
    split_ifs at hj with hji
    · cases hj
      exact hstream
    · exact h.stream j t' hj
  state j t' hj := by
    rw [hserved] at hj
    split_ifs at hj with hji
    · cases hj
      subst hji
      exact hstate.imp (fun ⟨p, hlive, _⟩ => ⟨p, hlive⟩) id
    · rw [hentry j hji]
      refine (h.state j t' hj).imp (fun ⟨p, hlive⟩ => ⟨p, ?_⟩) id
      exact hlive.frame (hentry j hji) (hheap j p hji hlive.userdata)
  unserved j hj := by
    rw [hserved] at hj
    split_ifs at hj with hji
    rw [hentry j hji]
    exact h.unserved j hj
  unread j := by
    by_cases hji : j = i
    · rw [hji]
      exact hread
    · rw [hentry j hji]
      exact h.unread j
  own j j' q hj hj' := by
    have hother (k : Fin MAXFD) (hk : (s'.mem.entry k).userdata = some q)
        (hi : (s'.mem.entry i).userdata = some q) : k = i := by
      by_contra hki
      rw [hentry k hki] at hk
      rcases hstate with ⟨p, hlive, hown⟩ | ⟨-, hzero⟩
      · obtain rfl := Option.some.inj (hi.symm.trans hlive.userdata)
        exact hown k hki hk
      · rw [hzero] at hi
        cases hi
    by_cases hji : j = i
    · subst hji
      exact (hother j' hj' hj).symm
    · by_cases hji' : j' = i
      · subst hji'
        exact hother j hj hj'
      · rw [hentry j hji] at hj
        rw [hentry j' hji'] at hj'
        exact h.own j j' q hj hj'

/-! ### What happens to a socket -/

/-- Nothing is called for a socket for which nothing is registered. -/
theorem wp_dispatch_zero {w : σ} {Q : Post ServerMem ServerCall ServerResp σ Unit}
    (h : m.entry i = .zero) : wp env (dispatchWritable i) Q m w ↔ Q (.ret ()) m w [] := by
  rw [dispatchWritable, wp_bind, wp_read, Post.seq_ret, h]
  exact Iff.rfl

/-- The callback is called for one that is served. -/
theorem wp_dispatch_live {w : σ} {Q : Post ServerMem ServerCall ServerResp σ Unit}
    (h : Live m i t p) :
    wp env (dispatchWritable i) Q m w ↔ wp env (chargenOnWritable i (some p)) Q m w := by
  rw [dispatchWritable, wp_bind, wp_read, Post.seq_ret, h.onWrite, h.userdata, h.wantWrite]
  exact Iff.rfl

/-- What the service does when it takes a socket. -/
theorem wp_serviceChargenNew (env : Env ServerCall ServerResp σ) (fd : ℤ) (m : ServerMem) (w : σ) :
    wp env (serviceChargenNew fd) (fun o m' _ t => o = .ret () →
      ∃ (i : Fin MAXFD) (now : ℤ), fd = i ∧ m' = (m.setHeap (m.heap.alloc (stateAfter 0))).setEntry
      i ((m.entry i).watched m.heap.length now) ∧ t = [⟨.malloc, true⟩, ⟨.time, now⟩]) m w := by
  rw [serviceChargenNew, wp_bind, wp_perform, Post.seq_ret]
  generalize env w .malloc = r
  obtain ⟨ok, w'⟩ := r
  cases ok with
  | false =>
    intro hout
    cases hout
  | true =>
    dsimp only
    rw [if_pos rfl, wp_bind, wp_read, Post.seq_ret, wp_bind, wp_modify, Post.seq_ret]
    by_cases hfd : 0 ≤ fd ∧ fd < MAXFD
    · obtain ⟨k, rfl⟩ := Int.eq_ofNat_of_zero_le hfd.1
      have hk : k < MAXFD := Int.ofNat_lt.mp hfd.2
      refine (wp_eventWatchWritable (i := ⟨k, hk⟩)).mpr fun _ => ⟨⟨k, hk⟩, _, rfl, ?_, rfl⟩
      rw [stateAfter_zero]
      rfl
    · rw [eventWatchWritable, entryAt, dif_neg hfd]
      intro hout
      cases hout

theorem served_serve : (s.step env (.serve i)).served j =
    if j = i then some (s.run env (.serve i)).trace else s.served j := by
  by_cases hji : j = i
  · rw [if_pos hji, hji]
    exact if_pos rfl
  · rw [if_neg hji]
    exact if_neg fun heq => hji (Fin.ext (Int.ofNat_inj.mp heq.symm))

/-- A socket is handed to the service. -/
theorem Inv.serve (h : Inv s) {fd : ℤ} (hret : (s.run env (.serve fd)).out = .ret ()) :
    Inv (s.step env (.serve fd)) := by
  obtain ⟨i, now, rfl, hmem, htrace⟩ := wp_serviceChargenNew env fd s.mem s.world hret
  have hmem' : (s.step env (.serve i)).mem = _ := hmem
  have htrace' : (s.run env (.serve i)).trace = _ := htrace
  have hentry : (s.step env (.serve i)).mem.entry i = (s.mem.entry i).watched
      s.mem.heap.length now := by
    rw [hmem', ServerMem.entry_setEntry_self]
  have haccepted : accepted (s.run env (.serve i)).trace = [] := by
    rw [htrace']
    rfl
  have hlt (j : Fin MAXFD) (p : ℕ) (hp : (s.mem.entry j).userdata = some p) :
      p < s.mem.heap.length := by
    obtain ⟨st, hst⟩ := h.get_of_userdata hp
    exact Blocks.lt_of_get hst
  refine h.update (fun j => served_serve) (fun j hji => ?_) (fun j p _ hp => ?_) ?_ ?_
    (.inl ⟨s.mem.heap.length, .of_entry hentry ?_ ?_, fun j _ hj => ?_⟩)
  · rw [hmem', ServerMem.entry_setEntry_ne hji, ServerMem.entry_setHeap]
  · obtain ⟨st, hst⟩ := h.get_of_userdata hp
    rw [hmem', ServerMem.heap_setEntry, ServerMem.heap_setHeap, Blocks.get_alloc hst, hst]
  · rw [hentry]
    exact h.unread i
  · rw [haccepted]
    rfl
  · rw [htrace']
    exact not_failed_new now
  · rw [hmem', haccepted]
    exact Blocks.get_alloc_self
  · exact absurd (hlt j _ hj) (Nat.lt_irrefl _)

/-- What a call leaves: it has called `t'` for the socket. -/
def ChargenRun.called (s : ChargenRun σ) (i : Fin MAXFD) (m' : ServerMem) (w' : σ)
    (t' : ServerEvs) : ChargenRun σ :=
  ⟨m', w', fun j => if j = i then (s.served j).map (· ++ t') else s.served j⟩

theorem ChargenRun.served_called {w' : σ} (hs : s.served i = some t) :
    (s.called i m' w' t').served j = if j = i then some (t ++ t') else s.served j := by
  by_cases hji : j = i
  · subst hji
    rw [if_pos rfl]
    exact (if_pos rfl).trans (congrArg (Option.map (· ++ t')) hs)
  · rw [if_neg hji]
    exact if_neg hji

theorem Inv.called_nil (h : Inv s) (i : Fin MAXFD) {w' : σ} : Inv (s.called i s.mem w' []) := by
  have hserved : (s.called i s.mem w' []).served = s.served := by
    funext j
    by_cases hji : j = i
    · refine (if_pos hji).trans ?_
      cases s.served j with
      | none => rfl
      | some t => exact congrArg some (List.append_nil t)
    · exact if_neg hji
  exact ⟨hserved ▸ h.stream, hserved ▸ h.state, hserved ▸ h.unserved, h.unread, h.own⟩

theorem Inv.ne_of_userdata (h : Inv s) (hlive : Live s.mem i t p) {q : ℕ} (hji : j ≠ i)
    (hq : (s.mem.entry j).userdata = some q) : p ≠ q := by
  rintro rfl
  exact hji (h.own j i p hq hlive.userdata)

/-- `write` returns no count, and the socket is closed. -/
theorem Inv.close (h : Inv s) (hs : s.served i = some t) (hlive : Live s.mem i t p)
    {n : ℕ} {r : ℤ} {w' : σ} {k : Sent (rest n).length} (hk : k.1 ≤ 0) :
    Inv (s.called i ((s.mem.setEntry i .zero).setHeap (s.mem.heap.free p)) w'
      [⟨.write i (rest n), k⟩, ⟨.close i, r⟩]) := by
  have haccepted : accepted (t ++ [⟨.write i (rest n), k⟩, ⟨.close i, r⟩]) = accepted t := by
    rw [accepted_append, accepted_failed hk, List.append_nil]
  have hzero : ((s.mem.setEntry i .zero).setHeap (s.mem.heap.free p)).entry i = .zero := by
    rw [ServerMem.entry_setHeap, ServerMem.entry_setEntry_self]
  refine h.update (fun j => ChargenRun.served_called hs) (fun j hji => ?_)
    (fun j q hji hq => ?_) ?_ ?_ (.inr ⟨⟨t, _, k, r, rfl, hk, hlive.unfailed⟩, hzero⟩)
  · exact ServerMem.entry_setEntry_ne hji
  · exact Blocks.get_free_ne (h.ne_of_userdata hlive hji hq)
  · rw [ChargenRun.called, hzero]
    exact ⟨rfl, rfl⟩
  · rw [haccepted]
    exact h.stream i t hs

/-- `write` takes some bytes, and the socket stays. -/
theorem Inv.goOn (h : Inv s) (hs : s.served i = some t) (hlive : Live s.mem i t p)
    {now now' : ℤ} {w' : σ} {k : Sent (rest (accepted t).length).length} (hk : 0 < k.1) :
    Inv (s.called i (((s.mem.setHeap
      (s.mem.heap.put p (stateAfter ((accepted t).length + k.1.toNat)))).setActivity
        i now).setEntry i ((s.mem.entry i).watched p now')) w'
      [⟨.write i (rest (accepted t).length), k⟩, ⟨.time, now⟩, ⟨.time, now'⟩]) := by
  have hcount := toNat_sent_le k
  have haccepted :
      accepted (t ++ [⟨.write i (rest (accepted t).length), k⟩, ⟨.time, now⟩, ⟨.time, now'⟩]) =
      accepted t ++ stretch (endless chargenText 0) (accepted t).length k.1.toNat := by
    rw [accepted_append, accepted_some, take_rest hcount]
  refine h.update (fun j => ChargenRun.served_called hs) (fun j hji => ?_)
    (fun j q hji hq => ?_) ?_ ?_ (.inl ⟨p, .of_entry ServerMem.entry_setEntry_self ?_ ?_,
    fun j hji hj => h.ne_of_userdata hlive hji hj rfl⟩)
  · exact ServerMem.entry_setEntry_ne hji
  · exact Blocks.get_put_ne (h.ne_of_userdata hlive hji hq)
  · rw [ChargenRun.called, ServerMem.entry_setEntry_self]
    exact h.unread i
  · rw [haccepted, List.length_append, length_stretch, stretch_add, ← h.stream i t hs, Nat.zero_add]
  · rw [failed_append]
    exact not_or.mpr ⟨hlive.unfailed, not_failed_some hk⟩
  · rw [haccepted, List.length_append, length_stretch]
    exact Blocks.get_put_self hlive.state

/-- A socket is writable. -/
theorem Inv.writable (h : Inv s) (i : Fin MAXFD) :
    Inv (s.step env (.writable i)) ∧ (s.run env (.writable i)).out = .ret () := by
  refine (?_ : wp env (dispatchWritable i) (fun o m' w' t' => Inv (s.called i m' w' t') ∧
    o = .ret ()) s.mem s.world)
  cases hs : s.served i with
  | none => exact (wp_dispatch_zero (h.unserved i hs)).mpr ⟨h.called_nil i, rfl⟩
  | some t =>
    rcases h.state i t hs with ⟨p, hlive⟩ | ⟨-, hzero⟩
    · rw [wp_dispatch_live hlive]
      refine wp_chargenOnWritable hlive.state (fun k r w' hk => ⟨?_, rfl⟩)
        (fun k now now' w' hk => ⟨?_, rfl⟩)
      · exact h.close hs hlive hk
      · exact h.goOn hs hlive hk
    · exact (wp_dispatch_zero hzero).mpr ⟨h.called_nil i, rfl⟩

theorem Reached.inv (h : Reached env s) : Inv s := by
  induction h with
  | start w => exact inv_start w
  | serve fd _ hret ih => exact ih.serve hret
  | writable i _ ih => exact (ih.writable i).1

/-- A call for a socket that is served makes one `write`, of the rest of the line. -/
theorem Live.writes_writable (h : Live s.mem i t p) :
    writes (s.run env (.writable i)).trace = [((i : ℤ), rest (accepted t).length)] := by
  refine (?_ : wp env (dispatchWritable i)
    (fun _ _ _ t' => writes t' = [((i : ℤ), rest (accepted t).length)]) s.mem s.world)
  rw [wp_dispatch_live h]
  exact wp_chargenOnWritable h.state (fun _ _ _ _ => rfl) (fun _ _ _ _ _ => rfl)

theorem writes_writable_zero (h : s.mem.entry i = .zero) :
    writes (s.run env (.writable i)).trace = [] :=
  (wp_dispatch_zero (Q := fun _ _ _ t' => writes t' = []) h).mpr rfl

theorem Live.streams_goesOn (h : Live s.mem i t p) : (s.mem.entry i).wantWrite ≠ 0 ∧
    (s.mem.entry i).onWrite = some .chargenOnWritable ∧
    ∃ q st, (s.mem.entry i).userdata = some q ∧ s.mem.heap.get q = some st ∧ st.IsSuffix ∧
      writes (s.run env (.writable i)).trace = [((i : ℤ), chargenLine.slice st.ptr st.len)] := by
  refine ⟨?_, h.onWrite, p, _, h.userdata, h.state, stateAfter_isSuffix _, h.writes_writable⟩
  rw [h.wantWrite]
  decide

theorem Closed.failed (h : Closed i t) : Failed t := by
  obtain ⟨t₁, data, k, r, rfl, hk, -⟩ := h
  exact failed_append.mpr (.inr ⟨i, data, k, List.mem_cons_self, hk⟩)

/-- **All sockets are served as expected**, whatever `write` returns. -/
theorem chargen_streams (h : Reached env s) (hs : s.served i = some t) : Streams env s i t where
  stream := h.inv.stream i t hs
  goesOn hok := by
    rcases h.inv.state i t hs with ⟨p, hlive⟩ | ⟨hclosed, -⟩
    · exact hlive.streams_goesOn
    · exact absurd hclosed.failed hok
  ends hfail := by
    rcases h.inv.state i t hs with ⟨p, hlive⟩ | ⟨hclosed, hzero⟩
    · exact absurd hfail hlive.unfailed
    · have hquiet : writes (s.run env (.writable i)).trace = [] := writes_writable_zero hzero
      rw [hzero]
      exact ⟨hclosed, rfl, rfl, rfl, rfl, hquiet⟩
  returns := (h.inv.writable i).2

end Invariant

/-! ### A run -/

namespace Sample

theorem failed_le (data : Bytes) : -1 ≤ (-1 : ℤ) ∧ (-1 : ℤ) ≤ data.length :=
  ⟨Int.le_refl _, by omega⟩

/-- `write` takes 40 bytes, or what there is; the fourth returns `-1`. -/
def env : Env ServerCall ServerResp ℕ := fun w c => match c with
  | .write _ data =>
    if w = 3 then (⟨-1, failed_le data⟩, 4)
    else if h : 40 ≤ data.length then (⟨40, by omega⟩, w + 1)
    else (⟨data.length, by omega⟩, w + 1)
  | .close _ => (0, w)
  | .time => (0, w)
  | .malloc => (true, w)

/-- A socket. -/
def fd : Fin MAXFD := ⟨5, by decide⟩

/-- It is served, and writable `n` times. -/
def run : ℕ → ChargenRun ℕ
  | 0 => (ChargenRun.start 0).step env (.serve fd)
  | n + 1 => (run n).step env (.writable fd)

theorem reached (n : ℕ) : Reached env (run n) := by
  induction n with
  | zero => exact .serve fd (.start 0) rfl
  | succ n ih => exact .writable fd ih

/-- Three times it takes some of the line, at last all; then it is closed. -/
theorem accepted_run : ((run 4).served fd).map accepted = some chargenText := by decide +kernel

/-- The first call is still to come, and the fourth has closed the socket. -/
theorem chargen_streams_line :
    (∃ t, (run 0).served fd = some t ∧ ¬ Failed t ∧ Streams env (run 0) fd t) ∧
    ∃ t, (run 4).served fd = some t ∧ accepted t = chargenText ∧ Streams env (run 4) fd t := by
  constructor
  · exact ⟨_, rfl, not_failed_new 0, chargen_streams (reached 0) rfl⟩
  · obtain ⟨t, hs, haccepted⟩ := Option.map_eq_some_iff.mp accepted_run
    exact ⟨t, hs, haccepted, chargen_streams (reached 4) hs⟩

end Sample

end LwNBD.Chargen
