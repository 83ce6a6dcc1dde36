import LwNBD.Nbd.Served
import LwNBD.Nbd.Transfer
import LwNBD.Plugins.Contents

/-!
# A loudspeaker that is served

`plugins/pcmstream/pcmstream.c`: a server that plays what its client writes. The export is no array
of bytes: it has the size of `stream_get_size`, which is a lie, and the plugin looks at no offset.
What a client writes is played in the order of its messages, although the server cuts them into
chunks.

## The model

* `Audsrv` — what the plugin calls; `pcmstreamFlush`, `streamGetSize`, `pcmstreamBlockSize` — the
  callbacks that `LwNBD.Plugins.Contents` leaves out.
* `Plays` — a sound system that works.
* `pcmstreamHost` — the host of a session whose callbacks are those of the plugin.
* `speaker` — what transfers do: what is written is played, and what is read is anything.

## What is proved

* `pcmstreamHost_transfers` — the plugin makes these transfers.
* `speaker_export_served` — over a socket, a session plays what is written.
-/

namespace LwNBD.Pcmstream

open Resumption

/-! ### The callbacks -/

/-- What `pcmstream` calls. -/
structure Audsrv (δ : Type) where
  /-- `audsrv_wait_audio`. -/
  waitAudio (d : δ) (buflen : UInt32) : δ
  /-- `audsrv_play_audio`. -/
  playAudio (d : δ) (buf : Bytes) : δ

/-- `pcmstream_flush`. -/
def pcmstreamFlush (_flags : UInt32) : ℤ := 0

/-- `stream_get_size`. -/
def streamGetSize : Int64 := 0x7FFFFFFFFFFFE00

/-- `pcmstream_block_size`. -/
def pcmstreamBlockSize : UInt32 × UInt32 × UInt32 := (1, 1, 1)

variable {δ : Type}

/-- The host with the plugin, over a sound system. What is no callback is answered by `rest`. -/
def pcmstreamHost (audsrv : Audsrv δ) (rest : (e : Call) → Resp e) : Env Call Resp δ
  | d, .pread _ _ count offset => (pcmstreamPread count offset 0, d)
  | d, .pwrite _ _ buf count offset =>
    let (ret, plays) := pcmstreamPwrite buf count offset 0
    (ret, audsrv.playAudio (audsrv.waitAudio d count) plays)
  | d, .flush .. => (pcmstreamFlush 0, d)
  | d, .getSize .. => (streamGetSize, d)
  | d, .blockSize .. => (pcmstreamBlockSize, d)
  | d, e => (rest e, d)

/-! ### What is played -/

/-- A sound system that works, with room for `room` bytes: when it was waited for so many bytes,
they are all taken. -/
structure Plays (audsrv : Audsrv δ) (played : δ → Bytes) (room : ℕ) : Prop where
  /-- To wait plays nothing new. -/
  wait : ∀ d n, played (audsrv.waitAudio d n) = played d
  /-- What there is room for is played. -/
  play : ∀ d (n : UInt32) buf, buf.length = n.toNat → n.toNat ≤ room →
    played (audsrv.playAudio (audsrv.waitAudio d n) buf) = played (audsrv.waitAudio d n) ++ buf

/-- What transfers do: bytes that are written are played, wherever they are written. Those that are
read may be any. -/
def speaker : Transfer Bytes where
  reads _ _ d d' := d' = d
  writes _ a d d' := d' = d ++ a
  reads_nil _ _ := rfl
  reads_append h h' := h'.trans h
  writes_nil _ d := (List.append_nil d).symm
  writes_append := by
    rintro o a a' d _ _ rfl rfl
    exact List.append_assoc d a a'

section Host

variable {audsrv : Audsrv δ} {played : δ → Bytes} {room : ℕ} {rest : (e : Call) → Resp e}
  {p : Plugin} {handle : Handle}

/-- The plugin makes these transfers. -/
theorem pcmstreamHost_transfers (ha : Plays audsrv played room) {n : ℕ} (hn : n ≤ room) (size : ℕ) :
    MakesTransfers (pcmstreamHost audsrv rest) p handle 1 speaker played
    (fun _ _ => True) n size where
  pread := by
    rintro d count offset r d' k hr - - -
    cases hr
    exact ⟨rfl, trivial, fun _ _ => rfl⟩
  pwrite := by
    rintro - d buf count offset r d' k hr - - hroom hbuf
    cases hr
    have hone : count.toNat * (1 : UInt32).toNat = count.toNat := Nat.mul_one _
    rw [hone] at hroom hbuf ⊢
    have hlen : (buf.take count.toNat).length = count.toNat := by
      rw [List.length_take, Nat.min_eq_left hbuf]
    refine ⟨rfl, trivial, ?_⟩
    change played (audsrv.playAudio (audsrv.waitAudio d count) (buf.take count.toNat)) = _
    rw [ha.play d count _ hlen (Nat.le_trans hroom hn), ha.wait]
  flush := by
    rintro - d r d' hr
    cases hr
    exact ⟨rfl, rfl⟩
  note _ _ := rfl
  uninit _ _ := rfl

end Host

/-! ### What is answered -/

theorem speaker_serves {m : Msg} {d d' a : Bytes} (h : speaker.serves m d a d') :
    (∃ data, data.length = m.bytesRead ∧ a = simpleReply NBD_SUCCESS m.request.handle ++ data) ∧
    d' = d ++ m.payload := by
  unfold Transfer.serves at h
  unfold Msg.bytesRead
  split_ifs at h ⊢ with hr hw
  · obtain ⟨data, hlen, ha, hread⟩ := h
    refine ⟨⟨data, hlen, ha⟩, ?_⟩
    rw [payload_eq_nil (by rw [hr]; decide), List.append_nil]
    exact hread
  · exact ⟨⟨[], rfl, by rw [List.append_nil]; exact h.1⟩, h.2⟩
  · refine ⟨⟨[], rfl, by rw [List.append_nil]; exact h.1⟩, ?_⟩
    rw [payload_eq_nil hw, List.append_nil]
    exact h.2

/-- What is made of messages: the data of all of them are played, in order. -/
theorem speaker_run {played : δ → Bytes} {inv : ℕ → Bytes → Prop} {p : Plugin} {eflags : UInt16}
    {blocksize : UInt32} {size : ℕ} {ms : List Msg} {d d' a : Bytes}
    (h : (transferOffer speaker played inv p eflags blocksize size).Run d ms a d') :
    (∃ data, Replied ms data a) ∧ d' = d ++ ms.flatMap Msg.payload := by
  induction h with
  | nil => exact ⟨⟨[], .nil⟩, (List.append_nil _).symm⟩
  | cons hm _ ih =>
    obtain ⟨⟨data, hlen, rfl⟩, rfl⟩ := speaker_serves hm
    obtain ⟨⟨_, hreplied⟩, rfl⟩ := ih
    exact ⟨⟨_, .cons hlen hreplied⟩, by rw [List.flatMap_cons, List.append_assoc]⟩

theorem flatMap_payload_served (ms : List Msg) :
    (served ms).flatMap Msg.payload = ms.flatMap Msg.payload := by
  induction ms with
  | nil => rfl
  | cons m ms ih =>
    have hcons : served (m :: ms) = served [m] ++ served ms := served_append [m] ms
    rw [hcons, List.flatMap_append, ih, List.flatMap_cons]
    cases hm : m.isDisc with
    | true =>
      have htype : m.request.type = NBD_CMD_DISC := of_decide_eq_true hm
      rw [served_of_disc hm, payload_eq_nil (by rw [htype]; decide)]
      rfl
    | false =>
      rw [served_of_not hm, List.flatMap_singleton]

/-! ### The whole server -/

/-- **A loudspeaker is served over a socket.** The data of all WRITEs of a client are played in the
order of the messages, each byte once, whatever the offsets are, however the server cuts the
requests into chunks and the socket the bytes, and whatever READs, FLUSHes and DISCs are among them.
All are answered with success, and the session ends when the bytes do. -/
theorem speaker_export_served {audsrv : Audsrv δ} {played : δ → Bytes} {room : ℕ}
    (ha : Plays audsrv played room) {rest : (e : Call) → Resp e} {i : ContextIdx}
    (hdefault : rest .getDefaultexport = some i) {p : Plugin} {W : ℕ} {ν : Type}
    {net : Env Tcp.TcpCall (Tcp.TcpResp W) ν} {input : ν → Bytes} {sock : ℤ} {cfg : Config}
    {s : Shared} {ms : List Msg} {tfuel : ℕ} {addr : Obj → ℕ} (hW : 14 ≤ W)
    (hc : Tcp.Connected net sock input) (htfuel : 4096 < tfuel) (hsock : s.ctx.sock = sock)
    (hs : Exported cfg s.ctx p pcmstreamBlockSize.1 streamGetSize) (hroom : cfg.bufferLen ≤ room)
    (y : Stack ν δ) (hin : input y.net = stream ms)
    (hms : ∀ m ∈ ms, m.Legal 1 streamGetSize.toInt.toNat) : ∃ N, ∀ fuel ≥ N,
      let z :=
        (nbdSynchronousClientThreadCb cfg fuel sock).run
        (sockets net tfuel addr (pcmstreamHost audsrv rest)) s y
      z.out = .ret (-1) ∧ played z.env.host = played y.host ++ ms.flatMap Msg.payload ∧
        (∃ data a, z.env.output = y.output ++ a ∧ Replied (served ms) data a) ∧
        input z.env.net = [] ∧ z.mem = s.told ms := by
  refine ⟨loopFuel cfg + (input y.net).length + 1, fun fuel hfuel => ?_⟩
  have hmounted : Mounted cfg s.ctx p streamGetSize.toInt.toNat := by
    refine ⟨?_, ?_, hs.plugin, ?_⟩
    · rw [hs.blocksize]
      decide
    · rw [hs.blocksize]
      exact hs.fits
    · rw [hs.size]
      decide
  have htransfers : MakesTransfers (pcmstreamHost audsrv rest) p s.ctx.handle 1 speaker
      played (fun _ _ => True) cfg.bufferLen streamGetSize.toInt.toNat :=
    pcmstreamHost_transfers ha hroom _
  have hblock : s.ctx.minimumBlockSize = 1 := hs.blocksize
  have hlegal : ∀ m ∈ ms, m.isDisc = false →
      m.Served p s.ctx.eflags s.ctx.minimumBlockSize streamGetSize.toInt.toNat := by
    intro m hm hdisc
    rw [hblock]
    exact ⟨hms m hm hdisc, fun _ => ⟨hs.pwrite, hs.writable⟩, fun _ => hs.flush⟩
  rw [← hblock] at htransfers
  obtain ⟨⟨hout, ⟨a, houtput, hrun⟩, -, hinput, hmem⟩, -⟩ :=
    (transferOffer_kept htransfers hmounted).over_sockets addr y hW hc htfuel hsock hs.preinit
    (Prod.ext hdefault rfl) trivial hlegal hin (Nat.lt_of_succ_le hfuel)
  obtain ⟨⟨data, hreplied⟩, hplayed⟩ := speaker_run hrun
  refine ⟨hout, ?_, ⟨data, a, houtput, hreplied⟩, hinput, hmem⟩
  rw [← flatMap_payload_served]
  exact hplayed

namespace Sample

/-- A sound system that takes what there is. -/
def loud : Audsrv Bytes where
  waitAudio d _ := d
  playAudio d buf := d ++ buf

theorem loud_plays (room : ℕ) : Plays loud id room where
  wait _ _ := rfl
  play _ _ _ _ _ := rfl

/-- A server whose default export is the loudspeaker. -/
def server : Shared :=
  ⟨{ LwNBD.Sample.ctx with preinit := 1, minimumBlockSize := 1, exportsize := streamGetSize },
    .empty⟩

/-- A client that writes the same place twice, and leaves in between. -/
theorem speaker_export_served_twice :
    let ms := [LwNBD.Sample.zeroes 0 3, LwNBD.Sample.parting, LwNBD.Sample.zeroes 0 2]
    let x : Stack Bytes Bytes := ⟨stream ms, fun _ => 0, [], [1]⟩
    ∃ N, ∀ fuel ≥ N,
      let z := (nbdSynchronousClientThreadCb LwNBD.Sample.cfg fuel 5).run
        (sockets LwNBD.Sample.dribble 4097 (fun _ => 0) (pcmstreamHost loud LwNBD.Sample.others))
        server x
      z.out = .ret (-1) ∧ z.env.host = [1, 0, 0, 0, 0, 0] ∧
        (∃ data a, z.env.output = [] ++ a ∧ Replied (served ms) data a) ∧ z.env.net = [] ∧
        z.mem = server.told ms := by
  intro ms x
  have hlegal : ∀ m ∈ ms, m.Legal 1 streamGetSize.toInt.toNat := by
    intro m hm
    simp only [ms, List.mem_cons, List.not_mem_nil, or_false] at hm
    rcases hm with rfl | rfl | rfl
    · exact fun _ => ⟨.inr (.inl rfl), by decide, by decide, by decide⟩
    · exact fun h => absurd h (by decide)
    · exact fun _ => ⟨.inr (.inl rfl), by decide, by decide, by decide⟩
  have hexported : Exported LwNBD.Sample.cfg server.ctx LwNBD.Sample.plugin
      pcmstreamBlockSize.1 streamGetSize :=
    ⟨by decide, rfl, by decide, rfl, rfl, rfl, by decide, rfl⟩
  have hdefault : LwNBD.Sample.others .getDefaultexport = some LwNBD.Sample.slot := rfl
  exact speaker_export_served (loud_plays LwNBD.Sample.cfg.bufferLen) hdefault (by decide)
    (LwNBD.Sample.connected_dribble 5) (by decide) rfl hexported (Nat.le_refl _) x rfl hlegal

end Sample

end LwNBD.Pcmstream
