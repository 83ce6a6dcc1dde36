import LwNBD.Nbd.Handshake
import LwNBD.Nbd.Transmission

/-!
# Sessions

`servers/nbd/nbd.c`: the thread that serves one client, and the per-export settings
(`nbdify_context`, which the thread does not call).

The session loop chooses the phase by `c->state`, of the client's own record; the phases
report where they got to in `ctx->state`, of the record the sessions share.
-/

namespace LwNBD

open Resumption

/-- The flags `nbdify_context` derives from a plugin. -/
def nbdifyEflags (p : Plugin) : UInt16 :=
  NBD_FLAG_HAS_FLAGS ||| (if p.pwrite then 0 else NBD_FLAG_READ_ONLY) |||
    (if p.flush then NBD_FLAG_SEND_FLUSH else 0)

/-- `nbdify_context`. -/
def nbdifyContext : Server Unit := do
  let ctx ← ctxNow
  match ctx.p with
  | none => .halt .undefined
  | some p =>
    Prog.modify fun s => { s with ctx := { s.ctx with eflags := nbdifyEflags p } }
    let (minimum, preferred, maximum) ←
      if p.blockSize then Prog.perform (Call.blockSize p ctx.handle) else pure (512, 512, 512)
    Prog.modify fun s => { s with ctx := { s.ctx with
      minimumBlockSize := minimum
      preferredBlockSize := preferred
      maximumBlockSize := maximum } }

variable (cfg : Config) (fuel : ℕ)

/-- The record of a client that has connected, and the phase it starts in; none when there
is no context to start with. `s->preinit` is read as the field of `ctx`. -/
def clientInit (sock : ℤ) : Server (Option NbdClient) := do
  if (← ctxNow).preinit = 0 then
    match ← lwnbdNewContext with
    | none => pure none
    | some i => pure (some ⟨sock, .handshake, some i⟩)
  else
    match ← Prog.perform Call.getDefaultexport with
    | none => pure none
    | some i => pure (some ⟨sock, .transmission, some i⟩)

/-- The body of `while (r == 0)`: run the phase of `c->state`. The log line at its start
prints `ctx->state`; here each phase is noted as it is entered and left. -/
def sessionRound (c : NbdClient) : Server (Ctl NbdClient ℤ) := do
  let (r, c) ← match c.state with
    | .handshake => do
      note (.enter .protocolHandshake)
      let (r, c) ← protocolHandshake cfg fuel c
      note (.leave .protocolHandshake r (← ctxNow).state)
      pure (r, c)
    | .transmission => do
      note (.enter .transmissionPhase)
      let r ← transmissionPhase cfg fuel
      note (.leave .transmissionPhase r (← ctxNow).state)
      pure (r, c)
    | .abort => pure (-1, c)
  if r = 0 then pure (.next c) else pure (.done r)

/-- `nbd_synchronous_client_thread_cb`, for the client on socket `sock`. -/
def nbdSynchronousClientThreadCb (sock : ℤ) : Server ℤ := do
  match ← clientInit sock with
  | none => pure (-1)
  | some c => Prog.loop fuel (sessionRound cfg fuel) c

end LwNBD
