import LwNBD.Nbd.Served
import LwNBD.Nbd.Transfer
import LwNBD.Plugins.Tty

/-!
# A terminal that is served

`plugins/tty/tty.c`: a server whose clients read what is written to the terminal. There are two
sides to it. The threads of the system write to the ring while a read waits for them, and the server
takes what it is asked for, a chunk at a time, and looks at no offset. A client that reads has the
bytes in the order in which they were written, none is lost and none comes twice, as long as the
writers keep pace.

## The model

* `Console` — what is written while a read waits; `Paced` — enough for the read, and no more than
  the ring has room for.
* `ttyHost` — the host of a session whose callbacks are those of the plugin. What was written and
  read in all is kept beside the variables, so that it can be spoken of.
* `terminal` — what transfers do: a read returns what was written next.

## What is proved

* `Queue.type` — writes for which there is room are put in the ring.
* `ttyHost_transfers` — the plugin makes these transfers.
* `terminal_export_served` — over a socket, a session returns what was written, in order.
-/

namespace LwNBD.Tty

open Resumption

/-! ### The console -/

/-- What is written to the terminal while a read waits, given how many bytes are unread and how many
are asked for. -/
structure Console (κ : Type) where
  /-- The writes, and what becomes of the writers. -/
  writes (k : κ) (unread : ℕ) (count : UInt32) : List Bytes × κ

/-- The writers keep pace with the readers. -/
structure Paced {κ : Type} (console : Console κ) : Prop where
  /-- A read does not wait for ever. -/
  enough : ∀ k unread (count : UInt32), unread ≤ TTY_SIZE → count.toNat ≤ TTY_SIZE →
    count.toNat ≤ unread + (console.writes k unread count).1.flatten.length
  /-- The ring is not overrun. -/
  room : ∀ k unread (count : UInt32), unread ≤ TTY_SIZE → count.toNat ≤ TTY_SIZE →
    unread + (console.writes k unread count).1.flatten.length ≤ TTY_SIZE

/-- The call that writes the bytes. -/
def TtyOp.type (buf : Bytes) : TtyOp := .write (fun i => buf.getD i 0) (.ofNat buf.length)

/-- The bytes are written. -/
def TtyRun.type (s : TtyRun) (buf : Bytes) : TtyRun :=
  ⟨step s.mem (.type buf), s.written ++ (TtyOp.type buf).written, s.returned⟩

variable {s : TtyRun} {r w : ℕ} {buf : Bytes} {bufs : List Bytes}

theorem written_type (h : buf.length < 2 ^ 32) : (TtyOp.type buf).written = buf := by
  have hlen : (UInt32.ofNat buf.length).toNat = buf.length := by
    rw [UInt32.toNat_ofNat']
    exact Nat.mod_eq_of_lt h
  rw [TtyOp.type, TtyOp.written, hlen, stretch_getD (by omega), List.drop_zero, List.take_length]

/-- A write for which there is room puts its bytes at the end. -/
theorem Queue.type_one (h : Queue s r w) (hroom : w + buf.length ≤ r + TTY_SIZE)
    (hlt : r + TTY_SIZE < 2 ^ 63) :
    Queue (s.type buf) r (w + buf.length) ∧ (s.type buf).written = s.written ++ buf := by
  have hle := h.le
  have hsize : TTY_SIZE < 2 ^ 32 := by decide
  have hlen : (UInt32.ofNat buf.length).toNat = buf.length := by
    rw [UInt32.toNat_ofNat']
    exact Nat.mod_eq_of_lt (by omega)
  have hfits : (UInt32.ofNat buf.length).toNat ≤ TTY_SIZE := by omega
  obtain ⟨hout, hstep, -⟩ :=
    write_fits (fun i => buf.getD i 0) h.wwhence hfits (by rw [h.wwhence, hlen]; omega)
  have hlevel : (step s.mem (.type buf)).wwhence - (step s.mem (.type buf)).rwhence ≤ TTY_SIZE := by
    rw [TtyOp.type, hstep]
    dsimp only
    rw [h.wwhence, h.rwhence, hlen]
    omega
  have hqueue := h.write hout hlevel
  rw [List.append_nil, hlen] at hqueue
  exact ⟨hqueue, congrArg (s.written ++ ·) (written_type (by omega))⟩

/-- Writes for which there is room put their bytes at the end, one after the other. -/
theorem Queue.type (h : Queue s r w) (hroom : w + bufs.flatten.length ≤ r + TTY_SIZE)
    (hlt : r + TTY_SIZE < 2 ^ 63) :
    Queue (bufs.foldl TtyRun.type s) r (w + bufs.flatten.length) ∧
      (bufs.foldl TtyRun.type s).written = s.written ++ bufs.flatten ∧
      (bufs.foldl TtyRun.type s).returned = s.returned := by
  induction bufs generalizing s w with
  | nil => exact ⟨h, (List.append_nil _).symm, rfl⟩
  | cons buf bufs ih =>
    rw [List.flatten_cons, List.length_append] at hroom
    have hfirst : w + buf.length ≤ r + TTY_SIZE := by omega
    obtain ⟨hone, hwritten⟩ := h.type_one hfirst hlt
    obtain ⟨hqueue, hall, hreturned⟩ := ih hone (by omega)
    rw [List.flatten_cons, List.length_append, ← Nat.add_assoc]
    refine ⟨hqueue, ?_, hreturned⟩
    rw [List.foldl_cons, hall, hwritten, List.append_assoc]

/-! ### The host -/

variable {κ : Type}

/-- The host with the plugin. While a read waits, the terminal is written to. What is no callback,
and what the plugin has no callback for, is answered by `rest`. -/
def ttyHost (console : Console κ) (rounds : ℕ) (rest : (e : Call) → Resp e) :
    Env Call Resp (TtyRun × κ)
  | (s, k), .pread _ _ count _ =>
    let (bufs, k) := console.writes k (s.mem.wwhence - s.mem.rwhence).toNat count
    let s := bufs.foldl TtyRun.type s
    let z := (nbdttyPread (rounds + 1) count).run flag s.mem ()
    match z.out with
    | .ret (ret, data) => (⟨ret, data⟩, ⟨z.mem, s.written, s.returned ++ data⟩, k)
    | .halt _ => (⟨-1, []⟩, ⟨z.mem, s.written, s.returned⟩, k)
  | x, e => (rest e, x)

/-- What transfers do: what is read is what was written next, and what was written stays so. -/
def terminal : Transfer TtyRun where
  reads _ a d d' := d'.returned = d.returned ++ a ∧ d.written <+: d'.written
  writes _ a d d' := a = [] ∧ d' = d
  reads_nil _ d := ⟨(List.append_nil _).symm, List.prefix_refl _⟩
  reads_append := by
    rintro o a a' d d' d'' ⟨hr, hw⟩ ⟨hr', hw'⟩
    exact ⟨by rw [hr', hr, List.append_assoc], hw.trans hw'⟩
  writes_nil _ _ := ⟨rfl, rfl⟩
  writes_append := by
    rintro o a a' d d' d'' ⟨rfl, rfl⟩ ⟨rfl, rfl⟩
    exact ⟨rfl, rfl⟩

/-- The ring is a queue, and `n` more bytes can be read before a position gets too far. -/
def Holds (n : ℕ) (s : TtyRun) : Prop := ∃ r w, Queue s r w ∧ r + n + TTY_SIZE < 2 ^ 63

theorem Queue.read (h : Queue s r w) (count : UInt32) (hle : r + count.toNat ≤ w)
    (hlt : w < 2 ^ 63) (rounds : ℕ) :
    let z := (nbdttyPread (rounds + 1) count).run flag s.mem ()
    ∃ data, z.out = .ret (0, data) ∧ data.length = count.toNat ∧
      Queue ⟨z.mem, s.written, s.returned ++ data⟩ (r + count.toNat) w := by
  intro z
  have hfits := h.fits
  have hlevel : s.mem.wwhence - s.mem.rwhence ≤ TTY_SIZE := by
    rw [h.wwhence, h.rwhence]
    omega
  have hr := h.rwhence
  have hw := h.wwhence
  obtain ⟨-, ⟨hnot, -⟩ | ⟨-, hmore, -⟩ | ⟨-, -, hout, hmem⟩⟩ := 
    (wp_nbdttyPread hr hlevel rounds : wp flag (nbdttyPread (rounds + 1) count) _ s.mem ())
  · omega
  · omega
  obtain ⟨-, ⟨hnot, -⟩ | ⟨-, hmore, -⟩ | ⟨-, -, hout', hstep⟩⟩ := pread_cases hr hlevel rounds count
  · omega
  · omega
  have hqueue := h.pread hout'
  rw [hstep, ← hmem, TtyOp.written, List.append_nil] at hqueue
  refine ⟨_, hout, ?_, hqueue⟩
  have hlen := congrArg List.length hqueue.returned
  have hbefore := congrArg List.length h.returned
  rw [List.length_append, List.length_take, hqueue.length] at hlen
  rw [List.length_take, h.length] at hbefore
  omega

section Host

variable {console : Console κ} {rounds : ℕ} {rest : (e : Call) → Resp e}
  {p : Plugin} {handle : Handle}

/-- The plugin makes these transfers, while the writers keep pace. -/
theorem ttyHost_transfers (hc : Paced console) (hpw : p.pwrite = false) (hf : p.flush = false)
    {n : ℕ} (hn : n ≤ TTY_SIZE) (size : ℕ) :
    MakesTransfers (ttyHost console rounds rest) p handle 1 terminal Prod.fst Holds n size where
  pread := by
    rintro ⟨s, k⟩ count offset r ⟨s', k'⟩ m hr ⟨i, j, hqueue, hlt⟩ - hroom
    have hone : count.toNat * (1 : UInt32).toNat = count.toNat := Nat.mul_one _
    rw [hone] at hroom hlt ⊢
    have hle := hqueue.le
    have hfits := hqueue.fits
    have hunread : (s.mem.wwhence - s.mem.rwhence).toNat = j - i := by
      rw [hqueue.wwhence, hqueue.rwhence]
      omega
    have hcount : count.toNat ≤ TTY_SIZE := Nat.le_trans hroom hn
    have henough := hc.enough k (j - i) count (by omega) hcount
    have hkept := hc.room k (j - i) count (by omega) hcount
    -- what is written while the read waits
    have htype : j + (console.writes k (j - i) count).1.flatten.length ≤ i + TTY_SIZE := by omega
    obtain ⟨htyped, hwritten, hreturned⟩ := hqueue.type htype (by omega)
    obtain ⟨data, hout, hlen, hread⟩ := htyped.read count (by omega) (by omega) rounds
    rw [ttyHost, hunread] at hr
    dsimp only at hr
    rw [hout] at hr
    cases hr
    refine ⟨rfl, ⟨_, _, hread, by omega⟩, fun buf hbuf => ⟨?_, ?_⟩⟩
    · rw [store_full (hlen.trans hbuf.symm)]
      exact congrArg (· ++ data) hreturned
    · dsimp only
      rw [hwritten]
      exact List.prefix_append _ _
  pwrite h := by
    rw [hpw] at h
    cases h
  flush h := by
    rw [hf] at h
    cases h
  note _ _ := rfl
  uninit _ _ := rfl

end Host

/-! ### The whole server -/

/-- A client that reads: its messages are READs in the export, and DISCs. -/
def Reads (size : ℕ) (ms : List Msg) : Prop := ∀ m ∈ ms, m.isDisc = false →
  m.request.type = NBD_CMD_READ ∧ m.request.offset.toNat + m.request.count.toNat ≤ size

/-- What is made of READs: they return what was written next. -/
theorem terminal_run {κ : Type} {p : Plugin} {eflags : UInt16} {blocksize : UInt32} {size : ℕ}
    {ms : List Msg} {a : Bytes} {d d' : TtyRun} (hms : ∀ m ∈ ms, m.request.type = NBD_CMD_READ)
    (h : (transferOffer terminal (Prod.fst : TtyRun × κ → TtyRun) Holds p eflags blocksize size).Run
      d ms a d') :
    ∃ data, Replied ms data a ∧ d'.returned = d.returned ++ data ∧ d.written <+: d'.written := by
  induction h with
  | nil => exact ⟨[], .nil, (List.append_nil _).symm, List.prefix_refl _⟩
  | cons hm _ ih =>
    have ht := hms _ List.mem_cons_self
    obtain ⟨data', hreplied, hreturned', hwritten'⟩ :=
      ih fun m' hm' => hms m' (List.mem_cons_of_mem _ hm')
    obtain ⟨data, hlen, rfl, hreturned, hwritten⟩ := (if_pos ht).mp hm
    refine ⟨data ++ data', .cons (hlen.trans (if_pos ht).symm) hreplied, ?_,
      hwritten.trans hwritten'⟩
    rw [hreturned', hreturned, List.append_assoc]

/-- The record of a server whose default export it is. `size` is that of `stream_get_size`. -/
structure Exported (cfg : Config) (ctx : ContextNbd) (p : Plugin) (size : ℕ) :
    Prop extends Mounted cfg ctx p size where
  /-- There is no handshake. -/
  preinit : ctx.preinit ≠ 0
  /-- The block size is the minimum of `nbdtty_block_size`. -/
  blocksize : ctx.minimumBlockSize = 1
  /-- The plugin has no `pwrite`. -/
  pwrite : p.pwrite = false
  /-- And no `flush`. -/
  flush : p.flush = false

/-- **A terminal is served over a socket.** The bytes of the READs of a client, one after the other,
are what was written to the terminal from where the last reader stopped, in order: `written` begins
with all that was returned. So it is whatever the offsets are, however the server cuts the requests
into chunks, the socket the bytes, and the writers what they write, and however long reads wait. -/
theorem terminal_export_served {console : Console κ} (hconsole : Paced console) (rounds : ℕ)
    {rest : (e : Call) → Resp e} {i : ContextIdx} (hdefault : rest .getDefaultexport = some i)
    {p : Plugin} {size W : ℕ} {ν : Type} {net : Env Tcp.TcpCall (Tcp.TcpResp W) ν}
    {input : ν → Bytes} {sock : ℤ} {cfg : Config} {s : Shared} {ms : List Msg} {tfuel : ℕ}
    {addr : Obj → ℕ} (hW : 14 ≤ W) (hc : Tcp.Connected net sock input) (htfuel : 4096 < tfuel)
    (hsock : s.ctx.sock = sock) (hs : Exported cfg s.ctx p size) (y : Stack ν (TtyRun × κ))
    (hin : input y.net = stream ms) (hms : Reads size ms) (hy : Holds (transferred ms) y.host.1) :
    ∃ N, ∀ fuel ≥ N,
      let z :=
        (nbdSynchronousClientThreadCb cfg fuel sock).run
        (sockets net tfuel addr (ttyHost console rounds rest)) s y
      z.out = .ret (-1) ∧ input z.env.net = [] ∧ z.mem = s.told ms ∧
      ∃ data a, z.env.output = y.output ++ a ∧
        Replied (served ms) data a ∧ y.host.1.written <+: z.env.host.1.written ∧
        y.host.1.returned ++ data <+: z.env.host.1.written := by
  refine ⟨loopFuel cfg + (input y.net).length + 1, fun fuel hfuel => ?_⟩
  have htransfers : MakesTransfers (ttyHost console rounds rest) p s.ctx.handle 1 terminal
      Prod.fst Holds cfg.bufferLen
      size := ttyHost_transfers hconsole hs.pwrite hs.flush cfg.bufferLen_le size
  rw [← hs.blocksize] at htransfers
  have hlegal : ∀ m ∈ ms, m.isDisc = false →
      m.Served p s.ctx.eflags s.ctx.minimumBlockSize size := by
    intro m hm hdisc
    obtain ⟨ht, hstop⟩ := hms m hm hdisc
    rw [hs.blocksize]
    exact ⟨⟨.inl ht, Nat.one_dvd _, Nat.one_dvd _, hstop⟩,
      fun hw => absurd (ht.symm.trans hw) (by decide), fun hf =>
      absurd (ht.symm.trans hf) (by decide)⟩
  have hreads : ∀ m ∈ served ms, m.request.type = NBD_CMD_READ := by
    intro m hm
    obtain ⟨hmem, hdisc⟩ := List.mem_filter.mp hm
    exact (hms m hmem (by simpa using hdisc)).1
  have hkept := transferOffer_kept htransfers hs.toMounted
  have hsession :=
    hkept.over_sockets addr y hW hc htfuel hsock hs.preinit (Prod.ext hdefault rfl) hy hlegal hin
    (Nat.lt_of_succ_le hfuel)
  obtain ⟨⟨hout, ⟨a, houtput, hrun⟩, ⟨r, w, hqueue, -⟩, hinput, hmem⟩, -⟩ := hsession
  obtain ⟨data, hreplied, hreturned, hwritten⟩ := terminal_run hreads hrun
  refine ⟨hout, hinput, hmem, data, a, houtput, hreplied, hwritten, ?_⟩
  have hall := hreturned.symm.trans hqueue.returned
  exact ⟨_, (congrArg (· ++ _) hall).trans (List.take_append_drop r _)⟩

namespace Sample

/-- A thread that writes what is missing, in numbers that count up. -/
def counting : Console ℕ where
  writes k unread count :=
    let n := count.toNat - unread
    ([(List.range n).map fun i => .ofNat (k + i)], k + n)

theorem counting_paced : Paced counting where
  enough k unread count _ _ := by
    simp only [counting, List.flatten_cons, List.flatten_nil, List.append_nil,
      List.length_map, List.length_range]
    omega
  room k unread count _ _ := by
    simp only [counting, List.flatten_cons, List.flatten_nil, List.append_nil,
      List.length_map, List.length_range]
    omega

/-- The plugin, which has no `pwrite` and no `flush`. -/
def plugin : Plugin := ⟨0, false, false, true, false, true⟩

/-- A server whose default export is the terminal. -/
def server : Shared :=
  ⟨{ LwNBD.Sample.ctx with
      preinit := 1
      minimumBlockSize := 1
      exportsize := 512
      p := some plugin }, .empty⟩

/-- A client that reads the same place twice, and leaves in between. -/
theorem terminal_export_served_twice :
    let ms := [LwNBD.Sample.reading 0 3, LwNBD.Sample.parting, LwNBD.Sample.reading 0 2]
    let x : Stack Bytes (TtyRun × ℕ) := ⟨stream ms, fun _ => 0, [], ⟨.start, [], []⟩, 0⟩
    ∃ N, ∀ fuel ≥ N,
      let z := (nbdSynchronousClientThreadCb LwNBD.Sample.cfg fuel 5).run
        (sockets LwNBD.Sample.dribble 4097 (fun _ => 0) (ttyHost counting 0 LwNBD.Sample.others))
        server x
      z.out = .ret (-1) ∧ z.env.net = [] ∧ z.mem = server.told ms ∧
      ∃ data a, z.env.output = [] ++ a ∧ Replied (served ms) data a ∧
        [] <+: z.env.host.1.written ∧ [] ++ data <+: z.env.host.1.written := by
  intro ms x
  have hreads : Reads 512 ms := by
    intro m hm hdisc
    simp only [ms, List.mem_cons, List.not_mem_nil, or_false] at hm
    rcases hm with rfl | rfl | rfl
    · exact ⟨rfl, by decide⟩
    · exact absurd hdisc (by decide)
    · exact ⟨rfl, by decide⟩
  have hexported : Exported LwNBD.Sample.cfg server.ctx plugin 512 :=
    ⟨⟨by decide, by decide, rfl, by decide⟩, by decide, rfl, rfl, rfl⟩
  have hdefault : LwNBD.Sample.others .getDefaultexport = some LwNBD.Sample.slot := rfl
  exact terminal_export_served counting_paced 0 hdefault (by decide)
    (LwNBD.Sample.connected_dribble 5) (by decide) rfl hexported x rfl hreads ⟨0, 0,
    queue_start, by decide⟩

end Sample

end LwNBD.Tty
