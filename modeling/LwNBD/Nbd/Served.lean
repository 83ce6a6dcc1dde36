import LwNBD.Nbd.Preinit
import LwNBD.Nbd.Sockets

/-!
# Exports that are served over sockets

The layers of a server put together: the session, `tcp_recv_block` and a socket on the one side of
it, a plugin on the other. A plugin is a block device only while its own data are in order, which
each of its callbacks keeps; then what is proved of a session over the wire, with a block device,
holds of the session over a socket, with the plugin.

## The model

* `Export` — a plugin that is a block device while an invariant holds.
* `DefaultExport` — the record of a server whose default export it is.
* `filled` — a host without writes of no blocks.
* `Export.AsDisk` — what is expected of a session.

## What is proved

* `Export.served` — a session over a socket serves the messages of its client as the ideal disk
  does, however their bytes are cut.
* `Export.served_filled` — a host that is such an export but for writes of no blocks does so too, if
  the client asks for none.
-/

namespace LwNBD

open Resumption

variable {β : Type}

/-- A host whose plugin is a block device while an invariant holds, which every call keeps. -/
structure Export (β : Type) where
  /-- The host. -/
  host : Env Call Resp β
  /-- What is to hold of it. -/
  inv : β → Prop
  /-- It is kept. -/
  keeps : ∀ b e, inv b → inv (host b e).2
  /-- The bytes of the export. -/
  content : β → Bytes
  /-- The plugin. -/
  plugin : Plugin
  /-- Its handle. -/
  handle : Handle
  /-- The bytes of a block. -/
  blocksize : UInt32
  /-- It is a block device. -/
  device : IsBlockDevice (host.within inv keeps) plugin handle blocksize fun b => content b.1

/-- The record of a server whose default export it is, in state `b`. -/
structure DefaultExport (cfg : Config) (ctx : ContextNbd) (x : Export β) (b : β) : Prop where
  /-- There is no handshake. -/
  preinit : ctx.preinit ≠ 0
  /-- The handle. -/
  handle : ctx.handle = x.handle
  /-- The block size. -/
  blocksize : ctx.minimumBlockSize = x.blocksize
  /-- The plugin, which can be read, written and flushed, and the size. -/
  exports : Exports cfg ctx x.plugin (x.content b).length
  /-- What is asked for it returns, and does nothing else. -/
  default : ∃ i, x.host b .getDefaultexport = (some i, b)
  /-- It is in order. -/
  inv : x.inv b

/-- The record of a server whose default export has a plugin `p` that reads, writes and flushes,
with the block size and the size that its callbacks tell. -/
structure Exported (cfg : Config) (ctx : ContextNbd) (p : Plugin) (block : UInt32) (bytes : Int64) :
    Prop where
  /-- There is no handshake. -/
  preinit : ctx.preinit ≠ 0
  /-- The block size. -/
  blocksize : ctx.minimumBlockSize = block
  /-- A block fits the buffer. -/
  fits : block.toNat ≤ cfg.bufferLen
  /-- The plugin. -/
  plugin : ctx.p = some p
  /-- It can be written. -/
  pwrite : p.pwrite = true
  /-- It can be flushed. -/
  flush : p.flush = true
  /-- It is not read-only. -/
  writable : hasReadOnly ctx.eflags = false
  /-- The size. -/
  size : ctx.exportsize = bytes

/-- The host, without writes of no blocks. -/
def filled (host : Env Call Resp β) : Env Call Resp β
  | b, .pwrite p handle buf count offset =>
    if count = 0 then ((0 : ℤ), b) else host b (.pwrite p handle buf count offset)
  | b, e => host b e

theorem filled_of_fills {host : Env Call Resp β} {b : β} {e : Call} (he : e.Fills) :
    filled host b e = host b e := by
  cases e with
  | pwrite p handle buf count offset => exact if_neg he
  | _ => rfl

theorem filled_keeps {host : Env Call Resp β} {inv : β → Prop} (h : ∀ b e, inv b → inv (host b e).2)
    (b : β) (e : Call) (hb : inv b) : inv (filled host b e).2 := by
  cases e with
  | pwrite p handle buf count offset =>
    dsimp only [filled]
    split_ifs
    · exact hb
    · exact h b _ hb
  | _ => exact h b _ hb

/-- What is expected of a session: the replies are those of the ideal disk to the messages that are
no DISC, the plugin has its bytes, and all that was sent is read. -/
def Export.AsDisk {ν : Type} (x : Export β) (input : ν → Bytes) (s : Shared)
    (ms : List Msg) (y : Stack ν β) : Post Shared Call Resp (Stack ν β) ℤ := fun o s' y' _ =>
  o = .ret (-1) ∧ y'.output = y.output ++ replies (x.content y.host) (served ms) ∧
    x.content y'.host = contentAfter (x.content y.host) (served ms) ∧
    input y'.net = [] ∧ s' = s.told ms

section Served

variable {W : ℕ} {ν : Type} {net : Env Tcp.TcpCall (Tcp.TcpResp W) ν} {input : ν → Bytes}
  {sock : ℤ} {cfg : Config} {s : Shared} {ms : List Msg} {tfuel fuel : ℕ}
  {addr : Obj → ℕ} {y : Stack ν β}

variable (addr y) in
/-- An offer is kept over sockets. However the socket cuts the bytes of the client's messages, a
session serves them, and ends when they do. -/
theorem Offer.Kept.over_sockets {δ : Type} {x : Offer β δ} {host : Env Call Resp β}
    (hx : x.Kept host cfg s.ctx) (hW : 14 ≤ W) (hc : Tcp.Connected net sock input)
    (htfuel : 4096 < tfuel) (hsock : s.ctx.sock = sock) (hpre : s.ctx.preinit ≠ 0) {i : ContextIdx}
    (hdefault : host y.host .getDefaultexport = (some i, y.host)) (hinv : x.inv ms (x.view y.host))
    (hms : ∀ m ∈ ms, m.isDisc = false → x.legal m) (hin : input y.net = stream ms)
    (hfuel : loopFuel cfg + (input y.net).length < fuel) :
    wp (sockets net tfuel addr host) (nbdSynchronousClientThreadCb cfg fuel sock) (fun o s' y' t =>
      (o = .ret (-1) ∧ (∃ a, y'.output = y.output ++ a ∧
      x.Run (x.view y.host) (served ms) a (x.view y'.host)) ∧
        x.inv [] (x.view y'.host) ∧ input y'.net = [] ∧ s' = s.told ms) ∧
        FillsIf s.ctx.minimumBlockSize ms t) s y := by
  obtain ⟨hout, hserves, hfills⟩ :=
    hx.session sock (w := ⟨stream ms, y.output, y.host⟩) hpre hdefault rfl hinv hms
    rfl (by rw [hin] at hfuel; exact hfuel)
  obtain ⟨hinput, hmem, hinv', a, houtput, hrun⟩ := hserves.all
  have hunder₀ : Under input ⟨stream ms, y.output, y.host⟩ y := ⟨hin.symm, rfl, rfl⟩
  obtain ⟨hout', hmem', htrace', hunder⟩ := (sockets_simulates addr host hW hc htfuel).run
    (nbdSynchronousClientThreadCb cfg fuel sock) s hunder₀ (thread_asks _ cfg fuel hsock _)
  refine ⟨⟨hout'.trans hout, ⟨a, hunder.output.trans houtput, ?_⟩, ?_,
    hunder.input.symm.trans hinput, hmem'.trans hmem⟩, ?_⟩
  · rw [hunder.host]
    exact hrun
  · rw [hunder.host]
    exact hinv'
  · rw [htrace']
    exact hfills

variable (addr) in
/-- An export is served over a socket as an ideal disk, and of requests of some blocks it is asked
to write some. -/
theorem Export.served_fills (x : Export β) (hW : 14 ≤ W) (hc : Tcp.Connected net sock input)
    (htfuel : 4096 < tfuel) (hsock : s.ctx.sock = sock) (hx : DefaultExport cfg s.ctx x y.host)
    (hms : ∀ m ∈ ms, m.Legal x.blocksize (x.content y.host).length) (hin : input y.net = stream ms)
    (hfuel : loopFuel cfg + (input y.net).length < fuel) : wp (sockets net tfuel addr x.host)
      (nbdSynchronousClientThreadCb cfg fuel sock)
      (fun o s' y' t => x.AsDisk input s ms y o s' y' t ∧
        FillsIf x.blocksize ms t) s y := by
  let within : Stack ν {b : β // x.inv b} := ⟨y.net, y.memory, y.output, ⟨y.host, hx.inv⟩⟩
  have hdev := x.device
  obtain ⟨i, hdefault⟩ := hx.default
  rw [← hx.handle, ← hx.blocksize] at hdev
  rw [← hx.blocksize] at hms ⊢
  have hanswer : (x.host y.host .getDefaultexport).1 = some i := by rw [hdefault]
  have hstay : (x.host y.host .getDefaultexport).2 = y.host := by rw [hdefault]
  have hfound : x.host.within x.inv x.keeps within.host .getDefaultexport = (some i, within.host) :=
    Prod.ext hanswer (Subtype.ext hstay)
  -- with the plugin kept in order
  obtain ⟨⟨hout, ⟨a, houtput, hrun⟩, -, hinput, hmem⟩, hfills⟩ :=
    (diskOffer_kept hdev hx.exports).over_sockets addr within hW hc htfuel hsock hx.preinit
    hfound rfl hms hin hfuel
  obtain ⟨rfl, hcontent⟩ := diskOffer_run hrun
  -- with the plugin
  obtain ⟨hout', hmem', htrace', hnet', houtput', -, hhost'⟩ :=
    (sockets_hosts (within_simulates x.keeps _)).run (nbdSynchronousClientThreadCb cfg fuel sock) s
    (w := within) (show _ ∧ _ from ⟨rfl, rfl, rfl, rfl⟩) fun _ _ => trivial
  refine ⟨⟨hout'.trans hout, houtput'.trans houtput, ?_, ?_, hmem'.trans hmem⟩, ?_⟩
  · rw [← hhost']
    exact hcontent
  · rw [hnet']
    exact hinput
  · rw [htrace']
    exact hfills

/-- An export is served over a socket as an ideal disk. However the socket cuts the bytes of the
client's messages, the replies are those of the disk, to the messages that are no DISC; the plugin
has its bytes afterwards, and the session ends when the client's bytes do. -/
theorem Export.served (x : Export β) (hW : 14 ≤ W) (hc : Tcp.Connected net sock input)
    (htfuel : 4096 < tfuel) (hsock : s.ctx.sock = sock) (hx : DefaultExport cfg s.ctx x y.host)
    (hms : ∀ m ∈ ms, m.Legal x.blocksize (x.content y.host).length) (hin : input y.net = stream ms)
    (hfuel : loopFuel cfg + (input y.net).length < fuel) :
    wp (sockets net tfuel addr x.host) (nbdSynchronousClientThreadCb cfg fuel sock)
    (x.AsDisk input s ms y) s y :=
  (x.served_fills addr hW hc htfuel hsock hx hms hin hfuel).1

/-- The host stands for itself without writes of no blocks. -/
theorem filled_simulates (host : Env Call Resp β) : Simulates Call.Fills (filled host) host Eq := by
  rintro b _ e he rfl
  rw [filled_of_fills he]
  exact ⟨rfl, rfl⟩

/-- A host that is such an export but for writes of no blocks serves requests that have some. -/
theorem Export.served_filled (x : Export β) {host : Env Call Resp β} (hhost : x.host = filled host)
    (hW : 14 ≤ W) (hc : Tcp.Connected net sock input) (htfuel : 4096 < tfuel)
    (hsock : s.ctx.sock = sock) (hx : DefaultExport cfg s.ctx x y.host)
    (hms : ∀ m ∈ ms, m.Legal x.blocksize (x.content y.host).length)
    (hfilled : ∀ m ∈ ms, m.request.Filled x.blocksize) (hin : input y.net = stream ms)
    (hfuel : loopFuel cfg + (input y.net).length < fuel) :
    wp (sockets net tfuel addr host) (nbdSynchronousClientThreadCb cfg fuel sock)
    (x.AsDisk input s ms y) s y := by
  obtain ⟨hserved, hfills⟩ := x.served_fills addr hW hc htfuel hsock hx hms hin hfuel
  rw [hhost] at hserved hfills
  obtain ⟨hout, hmem, -, hnet, houtput, -, hhost'⟩ := (sockets_hosts (filled_simulates host)).run
    (nbdSynchronousClientThreadCb cfg fuel sock) s (w := y) ⟨rfl, rfl, rfl, rfl⟩ (hfills hfilled)
  obtain ⟨hret, hreplies, hcontent, hinput, htold⟩ := hserved
  refine ⟨hout.trans hret, houtput.trans hreplies, ?_, ?_, hmem.trans htold⟩
  · rw [← hhost']
    exact hcontent
  · rw [hnet]
    exact hinput

end Served

end LwNBD
