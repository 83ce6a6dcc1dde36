import LwNBD.Core.Uri
import LwNBD.Nbd.Protocol

/-!
# The handshake

`servers/nbd/protocol-handshake.c`: the greeting, the client's flags, and the loop that
reads options and answers them until one ends the handshake. The greeting and everything
read use the client's own socket, `c->sock`; every answer goes to `ctx->sock`, of the
record the sessions share.
-/

namespace LwNBD

open Resumption

variable (cfg : Config) (fuel : ℕ)

/-- The variables of the option loop: the client's record, and the memory of `new_opt` and
of `nbd_buffer`. -/
structure OptVars where
  /-- `*c`. -/
  c : NbdClient
  /-- `new_opt`. -/
  newOpt : Bytes
  /-- `nbd_buffer`. -/
  nbdBuffer : Bytes
  deriving DecidableEq

/-- How the option loop goes on: with another option, or by returning, the client's record
being as the function leaves it. -/
abbrev OptCtl := Ctl OptVars (ℤ × NbdClient)

/-- Read the data of an option and end it with a `NUL`; none when too little came. The
`NUL` is stored after the data even when they fill the buffer. -/
def readOptionData (x : OptVars) (optlen : UInt32) : Server (Option Bytes) :=
  if 0 < optlen then do
    let r ← syncRecv x.c.sock .nbdBuffer optlen.toNat
    if asUInt32 r.ret < optlen then pure none
    else do
      note (.index .nbdBuffer optlen.toNat)
      if cfg.bufferLen ≤ optlen.toNat then .halt .undefined
      else pure (some ((store x.nbdBuffer r.data).set optlen.toNat 0))
  else pure (some x.nbdBuffer)

/-- The flags announced for an export. -/
def announcedEflags (ctx : ContextNbd) : UInt16 :=
  if ctx.readonly ≠ 0 then ctx.eflags ||| NBD_FLAG_READ_ONLY else ctx.eflags

/-- How much of the export reply is sent: without the zeroes if the client asked so. -/
def exportReplyLen (cflags : UInt32) : ℕ := if cflags &&& NBD_FLAG_NO_ZEROES ≠ 0 then 10 else 134

/-- What is sent in answer to `NBD_OPT_EXPORT_NAME`: the size and the flags of `ctx`. -/
def exportReply (ctx : ContextNbd) (cflags : UInt32) : Bytes :=
  (exportNameOptionReply ctx.exportsize.toUInt64 (announcedEflags ctx)).take (exportReplyLen cflags)

/-- `if (new_opt.optlen > 0)`: look the export up by name, if there is one. -/
def selectContext (x : OptVars) (optlen : UInt32) : Server (Option ContextIdx) :=
  if 0 < optlen then lwnbdGetContext (cstr x.nbdBuffer) else pure x.c.ctx

/-- `case NBD_OPT_EXPORT_NAME`. -/
def optExportName (cflags : UInt32) (x : OptVars) (optlen : UInt32) : Server OptCtl := do
  let e ← selectContext x optlen
  let c := { x.c with ctx := e }
  if e = none then pure (.done (-1, c))
  else do
    let ctx ← ctxNow
    let size ← syncSend ctx.sock .handshakeFinish (exportReply ctx cflags) 0
    if asSize size < exportReplyLen cflags then pure (.done (-1, c))
    else do
      Prog.modify fun s => { s with ctx := { s.ctx with state := .transmission } }
      pure (.done (0, c))

/-- Send an option reply; whether all of it went. -/
def sendOptionReply (option reply replylen : UInt32) (flags : ℤ) : Server Bool := do
  let size ← syncSend (← ctxNow).sock .fixedNewOptionReply
      (fixedNewOptionReply option reply replylen) flags
  pure (20 ≤ asSize size)

/-- `case NBD_OPT_ABORT`. -/
def optAbort (x : OptVars) (option : UInt32) : Server OptCtl := do
  if ← sendOptionReply option NBD_REP_ACK 0 0 then
    Prog.modify fun s => { s with ctx := { s.ctx with state := .abort } }
    pure (.done (0, x.c))
  else pure (.done (-1, x.c))

/-- Send a piece of a list entry; whether all of it went. -/
def sendPiece (obj : Obj) (buf : Bytes) : Server Bool := do
  let size ← syncSend (← ctxNow).sock obj buf MSG_MORE
  pure (buf.length ≤ asSize size)

/-- One context of the list reply: its header, the length of its name, its name and its
description. -/
def sendListEntry (option : UInt32) (context : Context) : Server Bool := do
  let nameLen := context.name.length
  let descLen := context.description.length
  if ← sendOptionReply option NBD_REP_SERVER (UInt32.ofNat (nameLen + 4 + descLen)) MSG_MORE then
    if ← sendPiece .len (toBe32 (UInt32.ofNat nameLen)) then
      if ← sendPiece .name context.name then
        sendPiece .description context.description
      else pure false
    else pure false
  else pure false

/-- `for (i = 0; i < lwnbd_contexts_count(); i++)` of the list reply; whether every entry
went. -/
def sendList (option : UInt32) : Server Bool :=
  Prog.loop (MAX_CONTEXTS + 1) (fun i => do
    let reg := (← Prog.read).reg
    if h : i < reg.contextsCount ∧ i < MAX_CONTEXTS then
      if ← sendListEntry option (reg.get ⟨i, h.2⟩) then pure (.next (i + 1)) else pure (.done false)
    else pure (.done true)) 0

/-- `case NBD_OPT_LIST`. -/
def optList (x : OptVars) (option : UInt32) : Server OptCtl := do
  if ← sendList option then
    if ← sendOptionReply option NBD_REP_ACK 0 0 then pure (.next x) else pure (.done (-1, x.c))
  else pure (.done (-1, x.c))

/-- The other options, known or not. -/
def optDefault (x : OptVars) (option : UInt32) : Server OptCtl := do
  if ← sendOptionReply option NBD_REP_ERR_UNSUP 0 0 then pure (.next x) else pure (.done (-1, x.c))

/-- `switch (new_opt.option)`. -/
def handleOption (cflags : UInt32) (x : OptVars) (option optlen : UInt32) : Server OptCtl :=
  if option = NBD_OPT_EXPORT_NAME then optExportName cflags x optlen
  else if option = NBD_OPT_ABORT then optAbort x option
  else if option = NBD_OPT_LIST then optList x option
  else optDefault x option

/-- Read `new_opt`; none when too little came or its magic is wrong. -/
def readNewOption (x : OptVars) : Server (Option (NbdNewOption × Bytes)) := do
  let r ← syncRecv x.c.sock .newOpt 16
  let raw := store x.newOpt r.data
  let newOpt := NbdNewOption.ofBytes raw
  if asSize r.ret < 16 then pure none
  else if newOpt.version ≠ NBD_NEW_VERSION then pure none
  else pure (some (newOpt, NbdNewOption.hostOrder raw))

/-- Read an option and its data; none when the function returns instead. -/
def readOption (x : OptVars) : Server (Option (OptVars × NbdNewOption)) := do
  match ← readNewOption x with
  | none => pure none
  | some (newOpt, raw) => do
    note (.index .nbdOptions newOpt.option.toNat)
    if cfg.bufferLen < newOpt.optlen.toNat then pure none
    else match ← readOptionData cfg x newOpt.optlen with
      | none => pure none
      | some nbdBuffer => pure (some (⟨x.c, raw, nbdBuffer⟩, newOpt))

/-- The body of `while (1)`. -/
def serveOption (cflags : UInt32) (x : OptVars) : Server OptCtl := do
  match ← readOption cfg x with
  | none => pure (.done (-1, x.c))
  | some (x, newOpt) => handleOption cflags x newOpt.option newOpt.optlen

/-- The greeting and the client's flags; none when the client is refused. -/
def greet (c : NbdClient) : Server (Option UInt32) := do
  let cflags ← Prog.perform (Call.uninit 4)
  let size ← syncSend c.sock .newHs (newHandshake (← ctxNow).gflags.toUInt16) 0
  if asSize size < 18 then pure none
  else do
    let r ← syncRecv c.sock .cflags 4
    let cflags := be32 (store cflags.1 r.data)
    if asSize r.ret < 4 then pure none
    else if cflags ≠ (← ctxNow).gflags then pure none
    else pure (some cflags)

/-- `protocol_handshake`: its result, and the client's record as it leaves it. -/
def protocolHandshake (c : NbdClient) : Server (ℤ × NbdClient) := do
  match ← greet c with
  | none => pure (-1, c)
  | some cflags => do
    let newOpt ← Prog.perform (Call.uninit 16)
    let nbdBuffer ← Prog.perform (Call.uninit cfg.bufferLen)
    Prog.loop fuel (serveOption cfg cflags) ⟨c, newOpt.1, nbdBuffer.1⟩

end LwNBD
