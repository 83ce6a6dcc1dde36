import LwNBD.Nbd.Service

/-!
# Sessions on a block device

A session that starts with the transmission phase, for a plugin that is a block device: it is an
ideal disk, until the end of the stream, whatever DISCs are among the messages.

## The model

* `Msg.Legal` — a message that a client may send: one for the disk, or a DISC.
* `diskOffer` — what a block device offers: what an ideal disk does.

## What is proved

* `diskOffer_kept` — the server keeps it.
* `preinit_session_serves` — a session answers every message as the ideal disk does.
-/

namespace LwNBD

open Resumption

/-- A message that a client may send: one for the disk, or a DISC. -/
def Msg.Legal (blocksize : UInt32) (size : ℕ) (m : Msg) : Prop :=
  m.isDisc = false → m.Proper blocksize size

variable {β : Type} {host : Env Call Resp β} {cfg : Config} {fuel : ℕ} {s s₀ : Shared}
  {w w₀ : Wire β} {p : Plugin} {content : β → Bytes} {ms : List Msg} {m : Msg}
  {blocksize : UInt32} {size : ℕ}

/-- What a block device offers, of `size` bytes: what an ideal disk does. -/
def diskOffer (content : β → Bytes) (blocksize : UInt32) (size : ℕ) : Offer β Bytes where
  view := content
  serves m d a d' := a = simpleReply NBD_SUCCESS m.request.handle ++ m.op.result d ∧
    d' = m.op.apply d
  legal := Msg.Proper blocksize size
  inv _ d := d.length = size

/-- What is exported is what was, whatever the phase. -/
theorem Exports.of_record (h : Exports cfg s₀.ctx p size)
    (hs : s.ctx = { s₀.ctx with state := s.ctx.state }) : Exports cfg s.ctx p size := by
  rw [hs]
  exact ⟨h.pos, h.fits, h.plugin, h.pwrite, h.flush, h.writable, h.size⟩

/-- The server keeps what a block device offers. -/
theorem diskOffer_kept (hdev : IsBlockDevice host p s.ctx.handle s.ctx.minimumBlockSize content)
    (hexp : Exports cfg s.ctx p size) :
    (diskOffer content s.ctx.minimumBlockSize size).Kept host cfg s.ctx where
  pos := hexp.pos
  fits := hexp.fits
  note := hdev.note
  uninit := hdev.uninit
  skip _ _ _ _ h := h
  round := by
    intro fuel c m ms hc hx h0 hfuel hin _ (hproper : m.Proper s.ctx.minimumBlockSize size)
      (hsize : (content c.env.host).length = size)
    subst hsize
    have hblock : c.mem.ctx.minimumBlockSize = s.ctx.minimumBlockSize := by rw [hc]
    have hhandle : c.mem.ctx.handle = s.ctx.handle := by rw [hc]
    rw [← hblock, ← hhandle] at hdev
    rw [← hblock] at hproper
    refine wp_mono _ ?_ (round_serves fuel hdev (hexp.of_record hc) hx h0 hfuel hin hproper)
    intro o s' w' t hserved
    refine ⟨hserved.next, hserved.input, ⟨_, hserved.output, rfl, hserved.after⟩, ?_⟩
    change (content w'.host).length = _
    rw [hserved.after, hproper.length_apply]

/-- What a block device answers one after the other is what the ideal disk does. -/
theorem diskOffer_run {d d' : Bytes} {a : Bytes}
    (h : (diskOffer content blocksize size).Run d ms a d') :
    a = replies d ms ∧ d' = contentAfter d ms := by
  induction h with
  | nil => exact ⟨rfl, rfl⟩
  | cons hm _ ih =>
    obtain ⟨rfl, rfl⟩ := hm
    obtain ⟨rfl, rfl⟩ := ih
    exact ⟨rfl, rfl⟩

theorem wp_preinit_session (sock : ℤ) {i : ContextIdx} {b : β} (hpre : s.ctx.preinit ≠ 0)
    (hdefault : host w.host .getDefaultexport = (some i, b)) (hb : content b = content w.host)
    (hdev : IsBlockDevice host p s.ctx.handle s.ctx.minimumBlockSize content)
    (hexp : Exports cfg s.ctx p (content w.host).length)
    (hm : ∀ m ∈ ms, m.Legal s.ctx.minimumBlockSize (content w.host).length)
    (hin : w.input = stream ms) (hfuel : loopFuel cfg + w.input.length < fuel) :
    wp (wire host) (nbdSynchronousClientThreadCb cfg fuel sock)
      (fun o s' w' t =>
      (o = .ret (-1) ∧ w'.output = w.output ++ replies (content w.host) (served ms) ∧
        content w'.host = contentAfter (content w.host) (served ms) ∧
        w'.input = [] ∧ s' = s.told ms) ∧ FillsIf s.ctx.minimumBlockSize ms t) s w := by
  refine wp_mono _ ?_ ((diskOffer_kept hdev hexp).session sock hpre hdefault hb rfl hm hin hfuel)
  rintro o s' w' t ⟨rfl, hserves, hfills⟩
  obtain ⟨hinput, hs, -, a, hout, hrun⟩ := hserves.all
  obtain ⟨rfl, hafter⟩ := diskOffer_run hrun
  exact ⟨⟨rfl, hout, hafter, hinput, hs⟩, hfills⟩

/-- **A session that starts with the transmission phase serves every message**, whatever DISCs are
among them: the replies are those of the ideal disk to the messages that are no DISC, the content is
the one that disk has, and the session ends, with `-1`, at the end of the stream. -/
theorem preinit_session_serves (host : Env Call Resp β) (cfg : Config) (s : Shared) (w : Wire β)
    (sock : ℤ) (p : Plugin) (content : β → Bytes) (ms : List Msg) (i : ContextIdx) (b : β)
    (hpre : s.ctx.preinit ≠ 0) (hdefault : host w.host .getDefaultexport = (some i, b))
    (hb : content b = content w.host)
    (hdev : IsBlockDevice host p s.ctx.handle s.ctx.minimumBlockSize content)
    (hexp : Exports cfg s.ctx p (content w.host).length)
    (hm : ∀ m ∈ ms, m.Legal s.ctx.minimumBlockSize (content w.host).length)
    (hin : w.input = stream ms) :
    ∃ N, ∀ fuel ≥ N, let z := (nbdSynchronousClientThreadCb cfg fuel sock).run (wire host) s w
      z.out = .ret (-1) ∧ z.env.output = w.output ++ replies (content w.host) (served ms) ∧
        content z.env.host = contentAfter (content w.host) (served ms) ∧ z.env.input = [] ∧
        z.mem = s.told ms := by
  refine ⟨loopFuel cfg + w.input.length + 1, fun fuel hfuel => ?_⟩
  exact (wp_preinit_session sock hpre hdefault hb hdev hexp hm hin (Nat.lt_of_succ_le hfuel)).1

namespace Sample

/-- A DISC. -/
def parting : Msg := ⟨ask NBD_CMD_DISC 0 0, [], rfl, by decide⟩

/-- A server with `preinit`, whose default export is the disk. -/
def preinitialised : Shared := { twos with ctx := { twos.ctx with preinit := 1 } }

/-- The disk, which is the default export. -/
def defaultDisk : Env Call Resp Bytes
  | d, .getDefaultexport => (some slot, d)
  | d, e => disk d e

theorem defaultDisk_isBlockDevice : IsBlockDevice defaultDisk plugin Sample.ctx.handle 2 id :=
  ⟨disk_isBlockDevice.pread, disk_isBlockDevice.pwrite, disk_isBlockDevice.flush,
    disk_isBlockDevice.note, disk_isBlockDevice.uninit⟩

theorem preinitialised_exports : Exports Sample.cfg preinitialised.ctx plugin
    (id initially).length :=
  ⟨twos_exports.pos, twos_exports.fits, rfl, rfl, rfl, twos_exports.writable, twos_exports.size⟩

/-- A client that writes, leaves, and reads. -/
theorem preinit_session_serves_after_disc : ∃ N, ∀ fuel ≥ N,
    let z := (nbdSynchronousClientThreadCb Sample.cfg fuel 5).run (wire defaultDisk) preinitialised
      ⟨stream [zeroes 2 4, parting, reading 0 8], [], initially⟩
    z.out = .ret (-1) ∧ z.env.output = simpleReply NBD_SUCCESS 1 ++ (simpleReply NBD_SUCCESS 1 ++
      [1, 2, 0, 0, 0, 0, 7, 8]) ∧ z.env.host = [1, 2, 0, 0, 0, 0, 7, 8] ∧ z.env.input = [] ∧
      z.mem = preinitialised.told [zeroes 2 4, parting, reading 0 8] := by
  have hlegal : ∀ m ∈ [zeroes 2 4, parting, reading 0 8],
      m.Legal preinitialised.ctx.minimumBlockSize (id initially).length := by
    intro m hm
    simp only [List.mem_cons, List.not_mem_nil, or_false] at hm
    rcases hm with rfl | rfl | rfl
    · exact fun _ => ⟨.inr (.inl rfl), by decide, by decide, by decide⟩
    · exact fun h => absurd h (by decide)
    · exact fun _ => ⟨.inl rfl, by decide, by decide, by decide⟩
  exact preinit_session_serves defaultDisk Sample.cfg preinitialised
    ⟨stream [zeroes 2 4, parting, reading 0 8], [], initially⟩ 5 plugin id
    [zeroes 2 4, parting, reading 0 8] slot initially (by decide) rfl rfl defaultDisk_isBlockDevice preinitialised_exports hlegal rfl

end Sample

end LwNBD
