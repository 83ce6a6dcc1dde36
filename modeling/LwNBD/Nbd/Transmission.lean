import LwNBD.Core.Contexts
import LwNBD.Nbd.Protocol

/-!
# The transmission phase

`servers/nbd/protocol.c`: the loop that reads requests and serves them. The variables
declared outside the request loop are `Vars`; they carry over from one request to the
next. The functions below are the loop's body, cut at the cases of its `switch` and at
the two inner loops, each of which says whether the request loop goes round again
(`.next`) or the function returns (`.done`).
-/

namespace LwNBD

open Resumption

/-- The variables of `transmission_phase` that live across requests. -/
structure Vars where
  /-- `retry`. -/
  retry : ℕ
  /-- `sendflag`. -/
  sendflag : ℤ
  /-- `blkremains`. -/
  blkremains : UInt32
  /-- `byteread`. -/
  byteread : UInt32
  /-- `bufblksz`. -/
  bufblksz : UInt32
  /-- `offset`. -/
  offset : UInt64
  /-- The memory of `request`. -/
  request : Bytes
  /-- `nbd_buffer`. -/
  nbdBuffer : Bytes
  deriving DecidableEq

/-- The range check: `request.offset + request.count > ctx->exportsize`, in `uint64_t`. -/
def outOfRange (exportsize : Int64) (q : NbdRequest) : Bool :=
  exportsize.toUInt64 < q.offset + q.count.toUInt64

/-- `ctx->eflags & NBD_FLAG_READ_ONLY`. -/
def hasReadOnly (eflags : UInt16) : Bool := eflags &&& NBD_FLAG_READ_ONLY ≠ 0

variable (cfg : Config) (fuel : ℕ) (blocksize : UInt32)

/-- What an accepted READ or WRITE sets: the request in blocks, and the chunks it is
served by. -/
def Vars.accept (x : Vars) (q : NbdRequest) : Vars :=
  let bufblksz := UInt32.ofNat cfg.bufferLen / blocksize
  { x with
    sendflag := MSG_MORE
    bufblksz := bufblksz
    blkremains := q.count / blocksize
    offset := q.offset / blocksize.toUInt64
    byteread := bufblksz * blocksize }

/-- `if (blkremains < bufblksz)`: a shorter chunk when fewer blocks remain. -/
def Vars.shorten (x : Vars) : Vars :=
  if x.blkremains < x.bufblksz then
    { x with bufblksz := x.blkremains, byteread := x.blkremains * blocksize }
  else x

/-- `sendflag = 0`: no more is to come. -/
def Vars.stop (x : Vars) : Vars := { x with sendflag := 0 }

/-- `if (blkremains <= bufblksz)`: no more is to come after the last chunk. -/
def Vars.markLast (x : Vars) : Vars := if x.blkremains ≤ x.bufblksz then x.stop else x

/-- The start of a chunk. -/
def Vars.chunk (x : Vars) : Vars := (x.shorten blocksize).markLast

/-- Bytes are stored in `nbd_buffer`. -/
def Vars.fill (x : Vars) (data : Bytes) : Vars := { x with nbdBuffer := store x.nbdBuffer data }

/-- The end of a chunk that was transferred. -/
def Vars.advance (x : Vars) : Vars :=
  { x with
    offset := x.offset + x.bufblksz.toUInt64
    blkremains := x.blkremains - x.bufblksz
    retry := cfg.maxRetries }

/-! ### READ -/

/-- `if (r == 0)`: the chunk was read, and is sent. -/
def sendChunk (x : Vars) : Server (Ctl Vars (Ctl Vars ℤ)) := do
  let r ← syncSend (← ctxNow).sock .nbdBuffer (x.nbdBuffer.take x.byteread.toNat) x.sendflag
  if asUInt32 r ≠ x.byteread then pure (.done (.next x))
  else pure (.next (x.advance cfg))

/-- The chunk was not read: try again if retries are left. -/
def Vars.tryAgain (x : Vars) : Ctl Vars (Ctl Vars ℤ) :=
  if x.retry ≠ 0 then .next { x with retry := x.retry - 1, sendflag := 1 } else .done (.done (-1))

/-- `while (sendflag)` of a READ: read a chunk and send it. -/
def readChunk (x : Vars) : Server (Ctl Vars (Ctl Vars ℤ)) :=
  if x.sendflag = 0 then pure (.done (.next x))
  else do
    let x := x.chunk blocksize
    let r ← lwnbdPread (← ctxNow).toContext x.bufblksz x.offset
    let x := x.fill r.data
    if r.ret = 0 then sendChunk cfg x else pure x.tryAgain

/-- `case NBD_CMD_READ`. The result of sending the reply is only logged. -/
def cmdRead (x : Vars) (q : NbdRequest) : Server (Ctl Vars ℤ) := do
  let (error, x) ←
    if outOfRange (← ctxNow).exportsize q then pure ( NBD_EIO, x)
    else if blocksize = 0 then .halt .undefined
    else pure (NBD_SUCCESS, x.accept cfg blocksize q)
  let _ ← syncSend (← ctxNow).sock .reply (simpleReply error q.handle) x.sendflag
  Prog.loop fuel (readChunk cfg blocksize) x

/-! ### WRITE -/

/-- `if (r == byteread)`: the chunk was received, and is written. -/
def pwriteChunk (x : Vars) (error : UInt32) : Server (Ctl (Vars × UInt32) (Vars × UInt32)) := do
  let r ← lwnbdPwrite (← ctxNow).toContext x.nbdBuffer x.bufblksz x.offset
  if r ≠ 0 then pure (.next (x.stop.advance cfg, NBD_EIO))
  else pure (.next (x.advance cfg, error))

/-- `while (sendflag)` of a WRITE: receive a chunk and write it; `error` is the reply's. -/
def writeChunk (v : Vars × UInt32) : Server (Ctl (Vars × UInt32) (Vars × UInt32)) :=
  let (x, error) := v
  if x.sendflag = 0 then pure (.done (x, error))
  else do
    let x := x.chunk blocksize
    let r ← syncRecv (← ctxNow).sock .nbdBuffer x.byteread.toNat
    let x := x.fill r.data
    if asUInt32 r.ret = x.byteread then pwriteChunk cfg x error
    else pure (.next (x.stop, NBD_EOVERFLOW))

/-- `case NBD_CMD_WRITE`. -/
def cmdWrite (x : Vars) (q : NbdRequest) : Server (Ctl Vars ℤ) := do
  let ctx ← ctxNow
  let (x, error) ←
    if hasReadOnly ctx.eflags then pure (x, NBD_EPERM)
    else if outOfRange ctx.exportsize q then pure (x, NBD_ENOSPC)
    else if blocksize = 0 then .halt .undefined
    else pure (x.accept cfg blocksize q, NBD_SUCCESS)
  let (x, error) ← Prog.loop fuel (writeChunk cfg blocksize) (x, error)
  let _ ← syncSend (← ctxNow).sock .reply (simpleReply error q.handle) 0
  pure (.next x)

/-! ### The other requests -/

/-- `case NBD_CMD_DISC`: there is no reply. -/
def cmdDisc : Server (Ctl Vars ℤ) := do
  Prog.modify fun s => { s with ctx := { s.ctx with state := .abort } }
  pure (.done 0)

/-- `case NBD_CMD_FLUSH`. -/
def cmdFlush (x : Vars) (q : NbdRequest) : Server (Ctl Vars ℤ) := do
  let r ← lwnbdFlush (← ctxNow).toContext
  let error := if r = 0 then NBD_SUCCESS else NBD_EIO
  let _ ← syncSend (← ctxNow).sock .reply (simpleReply error q.handle) 0
  pure (.next x)

/-- The other types, known or not. -/
def cmdDefault (x : Vars) (q : NbdRequest) : Server (Ctl Vars ℤ) := do
  let _ ← syncSend (← ctxNow).sock .reply (simpleReply NBD_EINVAL q.handle) 0
  pure (.next x)

/-! ### The request loop -/

/-- `switch (request.type)`, with the log line before it. -/
def handleRequest (x : Vars) (q : NbdRequest) : Server (Ctl Vars ℤ) := do
  note (.index .nbdCommands q.type.toNat)
  if q.type = NBD_CMD_READ then cmdRead cfg fuel blocksize x q
  else if q.type = NBD_CMD_WRITE then cmdWrite cfg fuel blocksize x q
  else if q.type = NBD_CMD_DISC then cmdDisc
  else if q.type = NBD_CMD_FLUSH then cmdFlush x q
  else cmdDefault x q

/-- Receive a request; none when too little came or its magic is wrong. -/
def readRequest (x : Vars) : Server (Option (Vars × NbdRequest)) := do
  let r ← syncRecv (← ctxNow).sock .request 28
  let raw := store x.request r.data
  let q := NbdRequest.ofBytes raw
  if asSize r.ret < 28 then pure none
  else if q.magic ≠ NBD_REQUEST_MAGIC then pure none
  else pure (some ({ x with request := NbdRequest.hostOrder raw }, q))

/-- The body of `while (1)`. -/
def serveRequest (x : Vars) : Server (Ctl Vars ℤ) := do
  match ← readRequest x with
  | none => pure (.done (-1))
  | some (x, q) => handleRequest cfg fuel blocksize x q

/-- The variables before the first request. -/
def Vars.init (request nbdBuffer : Bytes) : Vars where
  retry := cfg.maxRetries
  sendflag := 0
  blkremains := 0
  byteread := 0
  bufblksz := 0
  offset := 0
  request := request
  nbdBuffer := nbdBuffer

/-- The declarations of `transmission_phase`: the block size, and the variables. Its
`ctx` is the address of a slot of `handles`, and never `NULL`. -/
def transmissionVars : Server (UInt32 × Vars) := do
  let request ← Prog.perform (Call.uninit 28)
  let nbdBuffer ← Prog.perform (Call.uninit cfg.bufferLen)
  pure ((← ctxNow).minimumBlockSize, .init cfg request.1 nbdBuffer.1)

/-- `transmission_phase`. -/
def transmissionPhase : Server ℤ := do
  let (blocksize, x) ← transmissionVars cfg
  Prog.loop fuel (serveRequest cfg fuel blocksize) x

end LwNBD
