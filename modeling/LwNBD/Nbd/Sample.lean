import LwNBD.Nbd.Wire

/-!
# A small server

The concrete data on which theorems are tried: a server with a buffer of two bytes and an
export of eight, clients' messages, and the simplest environments.

* `quiet` — a host whose callbacks succeed and do nothing.
* `cutData` — an environment whose transport sends none of the data of a READ.
-/

namespace LwNBD

open Resumption

variable {σ : Type}

/-- A host whose callbacks succeed and do nothing. -/
def quiet : Env Call Resp Unit
  | _, .recv .. => (⟨0, [], by decide, by decide, Nat.zero_le _⟩, ())
  | _, .send .. => (⟨0, by decide, by omega⟩, ())
  | _, .pread .. => (⟨0, []⟩, ())
  | _, .pwrite .. | _, .flush .. | _, .query .. => ((0 : ℤ), ())
  | _, .getSize .. => ((0 : Int64), ())
  | _, .blockSize .. => ((512, 512, 512), ())
  | _, .getDefaultexport => (none, ())
  | _, .uninit n => (⟨List.replicate n 0, List.length_replicate⟩, ())
  | _, .note _ => ((), ())

/-- The environment, but for the data of a READ: none of them are sent. -/
def cutData (env : Env Call Resp σ) : Env Call Resp σ
  | w, .send _ .nbdBuffer _ _ => (⟨0, by decide, by omega⟩, w)
  | w, e => env w e

namespace Sample

/-- A buffer of two bytes, and one retry. -/
def cfg : Config := ⟨2, 1, by decide, by decide⟩

/-- A plugin that can be written and flushed. -/
def plugin : Plugin := ⟨0, true, true, true, false, false⟩

/-- An export of eight blocks of one byte, served on socket 5. -/
def ctx : ContextNbd where
  handle := 7
  p := some plugin
  name := []
  description := []
  exportsize := 8
  eflags := 0
  minimumBlockSize := 1
  preferredBlockSize := 0
  maximumBlockSize := 0
  gflags := 3
  readonly := 0
  preinit := 0
  sock := 5
  state := .handshake

/-- The memory, with an empty context table. -/
def mem : Shared := ⟨ctx, .empty⟩

/-- An export of blocks of two bytes. -/
def twos : Shared := ⟨{ Sample.ctx with minimumBlockSize := 2 }, .empty⟩

/-- A request. -/
def ask (type : UInt16) (offset : UInt64) (count : UInt32) : NbdRequest :=
  ⟨NBD_REQUEST_MAGIC, 0, type, 1, offset, count⟩

/-- An option, before its data. -/
def option (option optlen : UInt32) : Bytes :=
  toBe64 NBD_NEW_VERSION ++ toBe32 option ++ toBe32 optlen

/-- The first slot of the context table. -/
def slot : ContextIdx := ⟨0, by decide⟩

/-- What is answered for a server that has a default export, and is asked for nothing else. -/
def others : (e : Call) → Resp e
  | .getDefaultexport => some slot
  | e => (quiet () e).1

/-- A client that sends these bytes. -/
def client (input : Bytes) : Wire Unit := ⟨input, [], ()⟩

end Sample

end LwNBD
