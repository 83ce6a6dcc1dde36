import Mathlib.Data.Nat.Notation
import Mathlib.Algebra.Ring.Int.Defs
import LwNBD.Resumption.Prog

/-!
# Plugins, contexts and what a server thread calls

The data of `include/lwnbd/lwnbd.h`, `lwnbd-plugin.h` and `piconbd.h`, and the calls
the code makes outside itself: the transport (`sync_recv_cb`, `sync_send_cb`) and the
callbacks of the content plugins.

## The model

* Memory. What the server threads share is `Shared`: the one `lwnbd_context_nbd_t` of
  the server instance, which every session is handed as `handle`, and the context table
  of `contexts.c`. The repository's `lwnbd_context_nbd_s` no longer starts with
  `LWNBD_CONTEXT_FIELDS`, but the code casts it to `lwnbd_context_t *` and reads
  `exportsize`, `p` and `handle` from it: `ContextNbd` has these fields.
* Calls. `Call` lists them and `Resp` says what each is answered by: any count up to
  the length asked for, or `-1`, from the transport; anything from a plugin. The
  contents of an uninitialised local variable are an answer too (`.uninit`). A callback
  pointer that may be `NULL` is a `Bool` of the plugin, and calling through `NULL` is
  `.undefined`.
* Notes. `Note` marks, among the calls, what the code does on the way: the functions it
  enters and leaves, and the array elements it accesses by a computed index.

Log lines are left out, but for the array elements their arguments read.
-/

namespace LwNBD

open Resumption

/-- A string of bytes. -/
abbrev Bytes := List UInt8

/-- The C string in a buffer: the bytes before the first `NUL`. -/
def cstr (b : Bytes) : Bytes := b.takeWhile (· ≠ 0)

/-- What Kconfig fixes for the nbd server, within its ranges. `MAX_REQUEST_SIZE` is
`NBD_BUFFER_LEN`. -/
structure Config where
  /-- `CONFIG_NBD_BUFFER_LEN`. -/
  bufferLen : ℕ
  /-- `CONFIG_MAX_RETRIES`. -/
  maxRetries : ℕ
  /-- `range 0 4096`. -/
  bufferLen_le : bufferLen ≤ 4096
  /-- `range 0 100`. -/
  maxRetries_le : maxRetries ≤ 100

/-- `MAX_CONTEXTS`. -/
def MAX_CONTEXTS : ℕ := 50

/-! ### Plugins and contexts -/

/-- A plugin's handle, an opaque pointer. -/
abbrev Handle := ℕ

/-- A registered `lwnbd_plugin_t`: which one it is, and which callbacks it has.
`lwnbd_plugin_init` accepts none without `pread`. -/
structure Plugin where
  /-- Which plugin. -/
  id : ℕ
  /-- Whether `pwrite` is set. -/
  pwrite : Bool
  /-- Whether `flush` is set. -/
  flush : Bool
  /-- Whether `get_size` is set. -/
  getSize : Bool
  /-- Whether `query` is set. -/
  query : Bool
  /-- Whether `block_size` is set. -/
  blockSize : Bool
  deriving DecidableEq, Repr

/-- `lwnbd_context_t`. -/
structure Context where
  /-- Plugin handle. -/
  handle : Handle
  /-- Plugin that provided the handle; a slot of the table starts with `NULL`. -/
  p : Option Plugin
  /-- `char name[32]`, as a C string. -/
  name : Bytes
  /-- `char description[64]`, as a C string. -/
  description : Bytes
  /-- The size of the export in bytes. -/
  exportsize : Int64
  deriving DecidableEq

/-- A context slot as the loader leaves it, all zero. -/
def Context.zero : Context := ⟨0, none, [], [], 0⟩

/-- `context_state_t`. -/
inductive ContextState where
  /-- `CONTEXT_FREE`. -/
  | free
  /-- `CONTEXT_CREATED`. -/
  | created
  deriving DecidableEq, Repr

/-- An index of the context table, which stands for a pointer to its slot. -/
abbrev ContextIdx := Fin MAX_CONTEXTS

/-- The static arrays of `contexts.c`. -/
structure Registry where
  /-- `contexts`. -/
  contexts : Vector Context MAX_CONTEXTS
  /-- `contexts_status`. -/
  status : Vector ContextState MAX_CONTEXTS
  deriving DecidableEq

/-- The registry as the loader leaves it. -/
def Registry.empty : Registry := ⟨.replicate _ .zero, .replicate _ .free⟩

/-! ### The nbd server -/

/-- `enum client_states`. -/
inductive ClientState where
  /-- `HANDSHAKE`. -/
  | handshake
  /-- `TRANSMISSION`. -/
  | transmission
  /-- `ABORT`. -/
  | abort
  deriving DecidableEq, Repr

/-- `lwnbd_context_nbd_t`, the record of a server instance. -/
structure ContextNbd extends Context where
  /-- Per-export flags. -/
  eflags : UInt16
  /-- The block size in bytes. -/
  minimumBlockSize : UInt32
  /-- Set by `nbdify_context` only. -/
  preferredBlockSize : UInt32
  /-- Set by `nbdify_context` only. -/
  maximumBlockSize : UInt32
  /-- nbd proto global flags. -/
  gflags : UInt32
  /-- All exports would be read only. -/
  readonly : UInt8
  /-- Skip the handshake. -/
  preinit : UInt8
  /-- The socket the phases answer on. -/
  sock : ℤ
  /-- The phase, as the phases themselves write it. -/
  state : ClientState
  deriving DecidableEq

/-- `struct nbd_client`, a local variable of each session. -/
structure NbdClient where
  /-- The socket of the client. -/
  sock : ℤ
  /-- The phase the session loop is in. -/
  state : ClientState
  /-- The context selected. -/
  ctx : Option ContextIdx
  deriving DecidableEq

/-- What the sessions of one server instance share. -/
structure Shared where
  /-- The server instance. -/
  ctx : ContextNbd
  /-- The context table. -/
  reg : Registry
  deriving DecidableEq

/-! ### Calls -/

/-- The objects whose address is handed to the transport. -/
inductive Obj where
  | newHs | cflags | newOpt | nbdBuffer | handshakeFinish | fixedNewOptionReply | len | name
  | description | request | reply
  deriving DecidableEq, Repr

/-- The arrays accessed by a computed index. -/
inductive Arr where
  | nbdCommands | nbdOptions | nbdBuffer
  deriving DecidableEq, Repr

/-- Functions whose entry is noted. -/
inductive Func where
  /-- `protocol_handshake`. -/
  | protocolHandshake
  /-- `transmission_phase`. -/
  | transmissionPhase
  /-- `lwnbd_get_context(uri)`. -/
  | lwnbdGetContext (uri : Bytes)
  deriving DecidableEq

/-- What is noted of a run besides the calls. -/
inductive Note where
  /-- A function is entered. -/
  | enter (f : Func)
  /-- A phase returns `r`, with `ctx->state` at `st`. -/
  | leave (f : Func) (r : ℤ) (st : ClientState)
  /-- Element `i` of an array is accessed. -/
  | index (a : Arr) (i : ℕ)
  deriving DecidableEq

/-- A parameter of a query: its key and, if there is one, its value. -/
abbrev Param := Bytes × Option Bytes

/-- What a thread of the server calls. The argument `flags` of the receive callback, and
that of the plugins' callbacks, is `0` throughout and left out. -/
inductive Call where
  /-- `sync_recv_cb(sock, &obj, len, 0)`. -/
  | recv (sock : ℤ) (obj : Obj) (len : ℕ)
  /-- `sync_send_cb(sock, &obj, len, flags)`, where `obj` holds `buf`. -/
  | send (sock : ℤ) (obj : Obj) (buf : Bytes) (flags : ℤ)
  /-- `p->pread(handle, buf, count, offset, 0)`. -/
  | pread (p : Plugin) (handle : Handle) (count : UInt32) (offset : UInt64)
  /-- `p->pwrite(handle, buf, count, offset, 0)`. -/
  | pwrite (p : Plugin) (handle : Handle) (buf : Bytes) (count : UInt32) (offset : UInt64)
  /-- `p->flush(handle, 0)`. -/
  | flush (p : Plugin) (handle : Handle)
  /-- `p->query(handle, params, nb_params)`. -/
  | query (p : Plugin) (handle : Handle) (params : List Param) (nbParams : ℤ)
  /-- `p->get_size(handle)`. -/
  | getSize (p : Plugin) (handle : Handle)
  /-- `p->block_size(handle, &minimum, &preferred, &maximum)`. -/
  | blockSize (p : Plugin) (handle : Handle)
  /-- `lwnbd_get_defaultexport()`, which the repository does not define. -/
  | getDefaultexport
  /-- The `n` bytes of an uninitialised local variable. -/
  | uninit (n : ℕ)
  /-- A note. -/
  | note (n : Note)
  deriving DecidableEq

/-- The answer of `sync_recv_cb` to a request for `len` bytes: its result, and the bytes
it stored. It may store some and then fail. -/
structure Recvd (len : ℕ) where
  /-- The result. -/
  ret : ℤ
  /-- What was stored at the start of the object. -/
  data : Bytes
  /-- `-1` is the only negative result. -/
  ret_ge : -1 ≤ ret
  /-- A count is of bytes that were stored. -/
  ret_le : ret ≤ data.length
  /-- No more is stored than was asked for. -/
  data_le : data.length ≤ len
  deriving DecidableEq

/-- A count of bytes that were stored. -/
def Recvd.count {len : ℕ} (n : ℕ) (data : Bytes) (h : n ≤ data.length ∧ data.length ≤ len) :
    Recvd len :=
  ⟨n, data, by omega, by omega, h.2⟩

/-- The answer of `sync_send_cb` for `len` bytes: `-1` or a count. -/
abbrev Sent (len : ℕ) := {r : ℤ // -1 ≤ r ∧ r ≤ len}

/-- The answer of a `pread` callback: its result, and what it stored in the buffer. -/
structure Pread where
  /-- The result. -/
  ret : ℤ
  /-- What was stored at the start of the buffer. -/
  data : Bytes
  deriving DecidableEq

/-- The answers to a call. -/
abbrev Resp : Call → Type
  | .recv _ _ len => Recvd len
  | .send _ _ buf _ => Sent buf.length
  | .pread .. => Pread
  | .pwrite .. | .flush .. | .query .. => ℤ
  | .getSize .. => Int64
  | .blockSize .. => UInt32 × UInt32 × UInt32
  | .getDefaultexport => Option ContextIdx
  | .uninit n => {b : Bytes // b.length = n}
  | .note _ => Unit

instance : (e : Call) → DecidableEq (Resp e)
  | .recv _ _ len => inferInstanceAs (DecidableEq (Recvd len))
  | .send _ _ buf _ => inferInstanceAs (DecidableEq (Sent buf.length))
  | .pread .. => inferInstanceAs (DecidableEq Pread)
  | .pwrite .. | .flush .. | .query .. => inferInstanceAs (DecidableEq ℤ)
  | .getSize .. => inferInstanceAs (DecidableEq Int64)
  | .blockSize .. => inferInstanceAs (DecidableEq (UInt32 × UInt32 × UInt32))
  | .getDefaultexport => inferInstanceAs (DecidableEq (Option ContextIdx))
  | .uninit n => inferInstanceAs (DecidableEq {b : Bytes // b.length = n})
  | .note _ => inferInstanceAs (DecidableEq Unit)

/-- A program of the server. -/
abbrev Server (α : Type) := Prog Shared Call Resp α

/-- A call of the server's, with its answer. -/
abbrev Ev := Event Call Resp

/-- Bytes stored at the start of an object. -/
def store (obj data : Bytes) : Bytes := (data ++ obj.drop data.length).take obj.length

@[simp] theorem length_store (obj data : Bytes) : (store obj data).length = obj.length := by
  simp [store]; omega

theorem store_full {obj data : Bytes} (h : data.length = obj.length) : store obj data = data := by
  simp [store, ← h]

theorem getElem?_store {obj data : Bytes} (h : data.length ≤ obj.length) {j : ℕ}
    (hj : j < data.length) : (store obj data)[j]? = data[j]? := by
  rw [store, List.getElem?_take_of_lt (by omega), List.getElem?_append_left hj]

/-- What was stored is the start of the object, as far as both reach. -/
theorem take_store_of_le {obj data : Bytes} {n : ℕ} (hobj : n ≤ obj.length)
    (hdata : n ≤ data.length) : (store obj data).take n = data.take n := by
  rw [store, List.take_take, Nat.min_eq_left hobj, List.take_append_of_le_length hdata]

theorem take_store {obj data : Bytes} (h : data.length ≤ obj.length) :
    (store obj data).take data.length = data := by
  rw [take_store_of_le h (Nat.le_refl _), List.take_length]

/-! ### Shared memory and the transport, as the code uses them -/

/-- `ctx->…`: the record of the server instance, as it is now. -/
def ctxNow : Server ContextNbd := do return (← Prog.read).ctx

/-- Note something. -/
def note (n : Note) : Server Unit := Prog.perform (Call.note n)

/-- `sync_recv_cb(sock, &obj, len, 0)`. -/
def syncRecv (sock : ℤ) (obj : Obj) (len : ℕ) : Server (Recvd len) :=
  Prog.perform (Call.recv sock obj len)

/-- `sync_send_cb(sock, &obj, len, flags)`. -/
def syncSend (sock : ℤ) (obj : Obj) (buf : Bytes) (flags : ℤ) : Server (Sent buf.length) :=
  Prog.perform (Call.send sock obj buf flags)

/-- A result in the type `size_t`, for a comparison with a `sizeof`: `-1` becomes the
largest. -/
def asSize (r : ℤ) : ℕ := (r % 2 ^ 64).toNat

/-- A result in the type `uint32_t`, for a comparison with one. -/
def asUInt32 (r : ℤ) : UInt32 := UInt32.ofInt r

theorem asSize_of_nonneg {r : ℤ} (h : 0 ≤ r) (h' : r < 2 ^ 64) : asSize r = r.toNat := by
  rw [asSize, Int.emod_eq_of_lt h h']

end LwNBD
