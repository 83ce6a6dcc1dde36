import LwNBD.Nbd.Phases
import LwNBD.Nbd.Progress

/-!
# Indices

Whether the arrays of the two phases are accessed within their bounds. A log line looks up the name
of each option and of each request by its code, before the code is known to be one of theirs; and
the data of an option are ended with a `NUL`, for which there is no place when they fill the buffer.
The buffer of the transmission phase is safe: a chunk never has more bytes than it.

## The model

* `nbdOptions`, `nbdCommands` — the tables of names.
* `Call.Fits` — what is accessed at a call lies in its array.

## What is proved

* `round_option_fits` — an option is read within bounds if and only if its code has a name and its
  data leave room for the `NUL`.
* `handshake_indices_iff` — so for every option of a handshake, and for a whole handshake.
* `round_request_fits` — a request is served within bounds if and only if its type has a name.
* `transmission_indices_iff` — so for every request, with every chunk within the buffer.
-/

namespace LwNBD

open Resumption

/-! ### The arrays -/

/-- `nbd_options`. -/
def nbdOptions : List (Option String) :=
  [none, some "NBD_OPT_EXPORT_NAME", some "NBD_OPT_ABORT", some "NBD_OPT_LIST",
    some "NBD_OPT_STARTTLS", some "NBD_OPT_INFO", some "NBD_OPT_GO",
    some "NBD_OPT_STRUCTURED_REPLY", some "NBD_OPT_LIST_META_CONTEXT",
    some "NBD_OPT_SET_META_CONTEXT"]

/-- `nbd_commands`. -/
def nbdCommands : List String :=
  ["NBD_CMD_READ", "NBD_CMD_WRITE", "NBD_CMD_DISC", "NBD_CMD_FLUSH",
    "NBD_CMD_TRIM", "NBD_CMD_CACHE", "NBD_CMD_WRITE_ZEROES", "NBD_CMD_BLOCK_STATUS"]

/-- How many elements an array has. -/
def Arr.size (cfg : Config) : Arr → ℕ
  | .nbdCommands => LwNBD.nbdCommands.length
  | .nbdOptions => LwNBD.nbdOptions.length
  | .nbdBuffer => cfg.bufferLen

/-- What is accessed at a call lies in its array: the element that is noted, and the part of
`nbd_buffer` that is received into, sent, or handed to the plugin. -/
def Call.Fits (cfg : Config) (blocksize : UInt32) : Call → Prop
  | .note (.index a i) => i < a.size cfg
  | .recv _ .nbdBuffer len => len ≤ cfg.bufferLen
  | .send _ .nbdBuffer buf _ => buf.length ≤ cfg.bufferLen
  | .pread _ _ count _ => count.toNat * blocksize.toNat ≤ cfg.bufferLen
  | .pwrite _ _ buf count _ =>
    buf.length = cfg.bufferLen ∧ count.toNat * blocksize.toNat ≤ cfg.bufferLen
  | _ => True

/-- All accesses of a run are within bounds. -/
def AllFit (cfg : Config) (blocksize : UInt32) (h : List Ev) : Prop :=
  ∀ e ∈ calls h, e.Fits cfg blocksize

variable {σ : Type} {env : Env Call Resp σ} {cfg : Config} {fuel : ℕ} {blocksize : UInt32}
  {s : Shared} {w : σ}
variable {cflags : UInt32} {x : OptVars} {h t : List Ev}

theorem allFit_append : AllFit cfg blocksize (h ++ t) ↔ AllFit cfg blocksize h ∧
    AllFit cfg blocksize t := by
  unfold AllFit
  rw [calls_append]
  simp only [List.mem_append, or_imp, forall_and]

/-- What is accessed within bounds later changes nothing about what was before. -/
theorem allFit_append_left (ht : AllFit cfg blocksize t) :
    AllFit cfg blocksize (h ++ t) ↔ AllFit cfg blocksize h := by
  rw [allFit_append, and_iff_left ht]

theorem allFit_one {e : Call} {r : Resp e} (he : e.Fits cfg blocksize) :
    AllFit cfg blocksize [⟨e, r⟩] := by
  simpa [AllFit] using he

theorem allFit_two {e e' : Call} {r : Resp e} {r' : Resp e'} (he : e.Fits cfg blocksize)
    (he' : e'.Fits cfg blocksize) : AllFit cfg blocksize [⟨e, r⟩, ⟨e', r'⟩] := by
  simpa [AllFit] using ⟨he, he'⟩

/-! ### The options -/

theorem Answers.fits {sock : ℤ} {e : Call} (he : Answers sock e) : e.Fits cfg blocksize := by
  unfold Answers at he
  split at he <;> trivial

theorem LooksUp.fits {uri : Option Bytes} {e : Call} (he : LooksUp uri e) :
    e.Fits cfg blocksize := by
  unfold LooksUp at he
  split at he <;> trivial

theorem Greets.fits {sock : ℤ} {e : Call} (he : Greets sock e) : e.Fits cfg blocksize := by
  unfold Greets at he
  split at he <;> trivial

/-- Handling an option accesses none of the arrays. -/
theorem handleOption_fits {option optlen : UInt32} : wp env (handleOption cflags x option optlen)
    (fun _ _ _ h => AllFit cfg blocksize h) s w := by
  refine wp_handleOption (fun _ => ?_) (fun _ k w₁ _ _ => by simp [AllFit, Call.Fits])
    (fun _ _ w₁ h hh e he => (hh e he).fits) (fun _ w₁ h hh e he => (hh e he).fits)
  refine wp_mono env ?_ (lookup_lookedUp x.c _)
  rintro ((_ | i) | e) s' w' h hl
  · exact ⟨fun _ e he => (hl.calls e he).fits, by simp⟩
  · have hfit : AllFit cfg blocksize h := fun e he => (hl.calls e he).fits
    refine ⟨by simp, ?_⟩
    rintro j - k w₁ -
    exact ⟨fun _ => allFit_append.mpr ⟨hfit, by simp [AllFit, Call.Fits]⟩,
      fun _ => allFit_append.mpr ⟨hfit, by simp [AllFit, Call.Fits]⟩⟩
  · exact fun e he => (hl.calls e he).fits

variable (env) in
/-- The option that is read at a head, before its data; none when the function returns instead. -/
def newOptionAt (c : OptHead σ) : Option NbdNewOption :=
  let r := env c.env (.recv c.x.c.sock .newOpt 16)
  let o := NbdNewOption.ofBytes (store c.x.newOpt r.1.data)
  if asSize r.1.ret < 16 ∨ o.version ≠ NBD_NEW_VERSION then none else some o

variable (env) in
/-- The answer to the receive of its data. -/
def dataAt (c : OptHead σ) (o : NbdNewOption) : Recvd o.optlen.toNat :=
  let r := env c.env (.recv c.x.c.sock .newOpt 16)
  (env (env r.2 (.note (.index .nbdOptions o.option.toNat))).2
    (.recv c.x.c.sock .nbdBuffer o.optlen.toNat)).1

variable (env cfg) in
/-- What is relied on: the code of the option has a name, and its data, if all come, do not fill the
buffer. -/
def OptionFits (c : OptHead σ) : Prop :=
  ∀ o, newOptionAt env c = some o → o.option.toNat < nbdOptions.length ∧
    ¬ (o.optlen ≠ 0 ∧ o.optlen ≤ asUInt32 (dataAt env c o).ret ∧ o.optlen.toNat = cfg.bufferLen)

variable {c : OptHead σ}

/-- Reading an option is within bounds if and only if its code has a name, and its data leave room
for the `NUL`. -/
theorem readOption_fits : wp env (readOption cfg c.x)
    (fun _ _ _ h => AllFit cfg blocksize h ↔ OptionFits env cfg c) c.mem c.env := by
  rw [readOption, wp_bind]
  refine wp_readNewOption (fun r w₁ hr hbad => ?_) (fun r w₁ hr hsize hversion => ?_)
  · have hnone : newOptionAt env c = none := by
      unfold newOptionAt
      rw [hr]
      exact if_pos hbad
    refine iff_of_true (by simp [AllFit, Call.Fits]) fun o ho => ?_
    rw [hnone] at ho
    cases ho
  · generalize ho : NbdNewOption.ofBytes (store c.x.newOpt r.data) = o at hversion
    have hsome : newOptionAt env c = some o := by
      unfold newOptionAt
      rw [hr]
      dsimp only
      rw [ho]
      exact if_neg (not_or.mpr ⟨Nat.not_lt.mpr hsize, not_not.mpr hversion⟩)
    have hdata : dataAt env c o = (env (env w₁ (.note (.index .nbdOptions o.option.toNat))).2
        (.recv c.x.c.sock .nbdBuffer o.optlen.toNat)).1 := by
      unfold dataAt
      rw [hr]
    have hfits : OptionFits env cfg c ↔ o.option.toNat < nbdOptions.length ∧
        ¬ (o.optlen ≠ 0 ∧ o.optlen ≤ asUInt32 (dataAt env c o).ret ∧
        o.optlen.toNat = cfg.bufferLen) := by
      unfold OptionFits
      rw [hsome]
      simp
    simp only [Post.seq_ret, wp_bind, wp_note, Post.after_after]
    rw [hfits, hdata]
    -- what is read before the data: the header, and the name of the code
    generalize hhead : ([⟨.recv c.x.c.sock .newOpt 16, r⟩] : List Ev) ++
      [⟨.note (.index .nbdOptions o.option.toNat), ()⟩] = head
    have hname : AllFit cfg blocksize head ↔ o.option.toNat < nbdOptions.length := by
      subst hhead
      simp [AllFit, Call.Fits, Arr.size]
    split
    case isTrue hlong =>
      rw [wp_pure, Post.after_apply, List.append_nil, hname]
      exact ⟨fun hlt => ⟨hlt, fun hfull => by omega⟩, And.left⟩
    case isFalse hfit =>
      rw [wp_bind]
      refine wp_readOptionData (fun h0 => ?_) (fun r' w₂ hr' h0 hshort => ?_)
        (fun r' w₂ hr' h0 hall hover => ?_) (fun r' w₂ hr' h0 _ hroom => ?_)
      · rw [Post.seq_ret, wp_pure, Post.after_apply, Post.after_apply, List.append_nil,
          List.append_nil, hname]
        exact ⟨fun hlt => ⟨hlt, fun hfull => hfull.1 h0⟩, And.left⟩
      · rw [Post.seq_ret, wp_pure, Post.after_apply, Post.after_apply, List.append_nil, hr',
          allFit_append_left (by simpa [AllFit, Call.Fits] using hfit), hname]
        exact ⟨fun hlt => ⟨hlt, fun hfull => UInt32.not_le.mpr hshort hfull.2.1⟩, And.left⟩
      · rw [Post.seq_halt, Post.after_apply, hr']
        refine iff_of_false (fun hall' => ?_) (fun hfull => hfull.2 ⟨h0, hall, by omega⟩)
        have hidx := (allFit_append.mp hall').2 (.note (.index .nbdBuffer o.optlen.toNat)) (by simp)
        exact absurd hidx (Nat.not_lt.mpr hover)
      · rw [Post.seq_ret, wp_pure, Post.after_apply, Post.after_apply, List.append_nil, hr',
          allFit_append_left (by simpa [AllFit, Call.Fits, Arr.size] using ⟨Nat.le_of_lt hroom,
                                   hroom⟩), hname]
        exact ⟨fun hlt => ⟨hlt, fun hfull => by omega⟩, And.left⟩

/-- A round of the option loop is within bounds if and only if the option it reads is. -/
theorem round_option_fits : wp env (serveOption cfg cflags c.x)
    (fun _ _ _ h => AllFit cfg blocksize h ↔ OptionFits env cfg c) c.mem c.env := by
  have hread : wp env (readOption cfg c.x) (fun _ _ _ h => AllFit cfg blocksize h ↔
      OptionFits env cfg c)
    c.mem c.env := readOption_fits
  rw [serveOption, wp_bind]
  refine wp_mono env ?_ hread
  rintro ((_ | ⟨y, o⟩) | e) s' w' h hh
  · rw [Post.seq_ret, wp_pure, Post.after_apply, List.append_nil]
    exact hh
  · have hhandle : wp env (handleOption cflags y o.option o.optlen)
        (fun _ _ _ h => AllFit cfg blocksize h) s' w' :=
      handleOption_fits
    rw [Post.seq_ret]
    refine wp_mono env ?_ hhandle
    intro o' s'' w'' h' hh'
    rw [Post.after_apply, allFit_append_left hh']
    exact hh
  · exact hh

/-! ### Every option -/

variable (cfg fuel) in
/-- A handshake that goes on is the option loop from its first head. -/
theorem run_protocolHandshake {client : NbdClient} {c : OptHead σ}
    (hout : ((greet client).run env s w).out = .ret (some cflags))
    (hc : firstOption env cfg client s w = c) :
    ∃ newOpt nbdBuffer, ((protocolHandshake cfg fuel client).run env s w).trace =
    ((greet client).run env s w).trace ++
      ([⟨.uninit 16, newOpt⟩, ⟨.uninit cfg.bufferLen, nbdBuffer⟩] ++
        ((Prog.loop fuel (serveOption cfg cflags) c.x).run env c.mem c.env).trace) := by
  subst hc
  rw [protocolHandshake, Prog.run_bind, Result.andThen, hout]
  exact ⟨_, _, rfl⟩

/-- **Handshake index safety.** Whatever the client sends and the transport does, an option is
handled within bounds if and only if its code has a name and its data, if all come, do not fill the
buffer; and a handshake in which all options are so is within bounds. -/
theorem handshake_indices_iff (env : Env Call Resp σ) (cfg : Config) (fuel : ℕ)
    (client : NbdClient) (s : Shared) (w : σ) :
    (∀ c, AtOption env cfg client s w c → ∀ cflags,
      (AllFit cfg s.ctx.minimumBlockSize (c.round env (serveOption cfg cflags)).trace ↔
      OptionFits env cfg c)) ∧
    ((∀ c, AtOption env cfg client s w c → OptionFits env cfg c) →
      AllFit cfg s.ctx.minimumBlockSize
      ((protocolHandshake cfg fuel client).run env s w).trace) := by
  refine ⟨fun c _ cflags => round_option_fits, fun hall => ?_⟩
  obtain ⟨-, hcalls, -, hout⟩ : wp env (greet client) _ s w := greet_greets
  have hgreet : AllFit cfg s.ctx.minimumBlockSize ((greet client).run env s w).trace :=
    fun e he => (hcalls e he).fits
  rcases hout with hout | hout
  · rw [protocolHandshake, Prog.run_bind, Result.andThen, hout]
    simpa using hgreet
  obtain ⟨newOpt, nbdBuffer, htrace⟩ := run_protocolHandshake cfg fuel hout rfl
  rw [htrace, allFit_append, allFit_append]
  refine ⟨hgreet, allFit_two trivial trivial, fun e he => ?_⟩
  obtain ⟨⟨_, r⟩, hin, rfl⟩ := List.mem_map.mp he
  obtain ⟨c, hc, hin⟩ := mem_trace_loop env hin
  have hfit : wp env (serveOption cfg s.ctx.gflags c.x)
      (fun _ _ _ h => AllFit cfg s.ctx.minimumBlockSize h ↔ OptionFits env cfg c) c.mem c.env :=
    round_option_fits
  exact hfit.mpr (hall c ⟨_, hout, hc⟩) _ (List.mem_map_of_mem hin)

namespace Sample

/-- A client that has just connected. -/
def newClient : NbdClient := ⟨5, .handshake, none⟩

/-- A client that sends an option with a byte of data, and then an `NBD_OPT_ABORT`. -/
def twoOptions : Wire Unit :=
  Sample.client (toBe32 3 ++ (option NBD_OPT_LIST 1 ++ [65] ++ option NBD_OPT_ABORT 0))

/-- A handshake of two options, of which the first has data, is within bounds. -/
theorem handshake_indices_iff_abort : AllFit Sample.cfg Sample.ctx.minimumBlockSize
    ((protocolHandshake Sample.cfg 8 newClient).run (wire quiet) Sample.mem twoOptions).trace := by
  refine (handshake_indices_iff (wire quiet) Sample.cfg 8 newClient Sample.mem twoOptions).2
    fun c ⟨cflags, hout, hc⟩ => ?_
  have hgreeted : ((greet newClient).run (wire quiet) Sample.mem twoOptions).out =
      .ret (some 3) := by decide +kernel
  cases hout.symm.trans hgreeted
  obtain ⟨n, hn, rfl⟩ :=
    hc.exists_rounds (k := 1) (Option.isNone_iff_eq_none.mp (by decide +kernel))
  have hall :
      ∀ n < 2, ∀ o ∈ newOptionAt (wire
      quiet) ((firstOption (wire quiet) Sample.cfg newClient Sample.mem twoOptions).rounds
      (wire quiet) (serveOption Sample.cfg 3) n), o.option.toNat < nbdOptions.length ∧
      o.optlen.toNat < 2 := by
    decide +kernel
  intro o ho
  obtain ⟨hcode, hlen⟩ := hall n (Nat.lt_succ_of_le hn) o ho
  exact ⟨hcode, fun hfull => absurd hfull.2.2 (Nat.ne_of_lt hlen)⟩

/-- **An option with a code beyond the table** is looked up in it. -/
theorem option_beyond_table :
    ¬ ∀ (σ : Type) (env : Env Call Resp σ) (cfg : Config) (fuel : ℕ) (client :
      NbdClient) (s : Shared) (w : σ),
      AllFit cfg s.ctx.minimumBlockSize
      ((protocolHandshake cfg fuel client).run env s w).trace := by
  intro h
  have hfit :=
    h _ (wire quiet) Sample.cfg 8 newClient Sample.mem (Sample.client (toBe32 3 ++ option 10 0))
    (.note (.index .nbdOptions 10)) (by decide +kernel)
  exact absurd hfit (Nat.lt_irrefl 10)

end Sample

/-! ### The requests -/

section Requests

variable {c : ReqHead σ} {q : NbdRequest}

/-- What is accessed before a request is handled: the name of its type. -/
theorem allFit_headerAt :
    AllFit cfg blocksize (headerAt env c q) ↔ q.type.toNat < nbdCommands.length := by
  simp [AllFit, headerAt, Call.Fits, Arr.size]

/-- A chunk that is read and sent is within the buffer. -/
theorem take_buffer_fits {x : Vars} (hx : x.Ok cfg blocksize) :
    (x.nbdBuffer.take x.byteread.toNat).length ≤ cfg.bufferLen := by
  rw [hx.length_take]
  exact hx.byteread_le

section Rules

variable {s : Shared} {P : Prop}

theorem allFit_iff_append {blocksize : UInt32} {h t : List Ev} (hh : AllFit cfg blocksize h ↔ P)
    (ht : AllFit cfg blocksize t) : AllFit cfg blocksize (h ++ t) ↔ P :=
  (allFit_append_left ht).trans hh

theorem fitting_read_rules : ReadRules env s cfg s.ctx.minimumBlockSize
    (fun _ _ _ h => AllFit cfg s.ctx.minimumBlockSize h ↔ P)
    (fun _ _ h => AllFit cfg s.ctx.minimumBlockSize h ↔ P) where
  leave _ hh _ := hh
  null _ hh _ _ := hh
  sent := by
    rintro x w h p r w₁ k w₂ hx hh - - - - z - -
    exact allFit_iff_append hh (allFit_two hx.chunk.fits (take_buffer_fits hx.chunk.fill))
  cut := by
    rintro x w h p r w₁ k w₂ hx hh - - - - z - - -
    exact allFit_iff_append hh (allFit_two hx.chunk.fits (take_buffer_fits hx.chunk.fill))
  again := by
    rintro x w h p r w₁ hx hh - - - - -
    exact allFit_iff_append hh (allFit_one hx.chunk.fits)
  fail := by
    rintro x w h p r w₁ hx hh - - - - -
    exact allFit_iff_append hh (allFit_one hx.chunk.fits)

theorem fitting_write_rules : WriteRules env s cfg s.ctx.minimumBlockSize
    (Post.thenReply env q.handle fun _ _ _ h => AllFit cfg s.ctx.minimumBlockSize h ↔ P)
    (fun _ _ _ h => AllFit cfg s.ctx.minimumBlockSize h ↔ P) where
  leave := by
    rintro x e w h hx hh - k w₁ -
    exact allFit_iff_append hh (allFit_one trivial)
  null := by
    rintro x e w h r w₁ hx hh - - - -
    exact allFit_iff_append hh (allFit_one hx.chunk.byteread_le)
  written := by
    rintro x e w h p r w₁ k w₂ hx hh - - - - - z - -
    exact allFit_iff_append hh
      (allFit_two hx.chunk.byteread_le ⟨hx.chunk.fill.buffer, hx.chunk.fits⟩)
  failed := by
    rintro x e w h p r w₁ k w₂ hx hh - - - - - z - -
    exact allFit_iff_append hh
      (allFit_two hx.chunk.byteread_le ⟨hx.chunk.fill.buffer, hx.chunk.fits⟩)
  cut := by
    rintro x e w h r w₁ hx hh - - -
    exact allFit_iff_append hh (allFit_one hx.chunk.byteread_le)

end Rules

/-- A round of the request loop is within bounds if and only if the type of the request has a
name. -/
theorem round_request_fits (hc : c.x.Ok cfg c.mem.ctx.minimumBlockSize)
    (hq : requestAt env c = some q) :
    wp env (serveIn cfg fuel c.mem c.x) (fun _ _ _ h => AllFit cfg c.mem.ctx.minimumBlockSize h ↔
      q.type.toNat < nbdCommands.length) c.mem c.env := by
  have hhead : AllFit cfg c.mem.ctx.minimumBlockSize (headerAt env c q) ↔
      q.type.toNat < nbdCommands.length :=
    allFit_headerAt
  have H : RoundRules env cfg c.mem.ctx.minimumBlockSize c q
      (fun _ _ _ h => AllFit cfg c.mem.ctx.minimumBlockSize h ↔ q.type.toNat < nbdCommands.length)
      (fun _ _ h => AllFit cfg c.mem.ctx.minimumBlockSize h ↔ q.type.toNat < nbdCommands.length)
      (fun _ _ _ h => AllFit cfg c.mem.ctx.minimumBlockSize h ↔
        q.type.toNat < nbdCommands.length) :=
    { readLoop := fun _ => fitting_read_rules
      readRefused := fun _ _ _ _ _ => allFit_iff_append hhead (allFit_one trivial)
      readAccepted := fun _ _ _ _ _ _ => allFit_iff_append hhead (allFit_one trivial)
      readZero := fun _ _ _ => hhead
      writeLoop := fun _ => fitting_write_rules
      writeRefused := fun _ _ => hhead
      writeAccepted := fun _ _ _ => hhead
      writeZero := fun _ _ _ => hhead
      disc := fun _ => hhead
      flush := by
        rintro - p r w₁ k w₂ - - - -
        exact allFit_iff_append hhead (allFit_two trivial trivial)
      flushNull := fun _ _ => hhead
      other := by
        rintro - - - - k w₁ -
        exact allFit_iff_append hhead (allFit_one trivial) }
  exact H.round hq (fun _ _ _ _ hh => hh) (fun _ _ _ _ _ hh => hh) hc

variable (env cfg) in
/-- The accesses for a request are within bounds: all that are made in its round, and in every
iteration of its loop the chunk, which is that of a whole number of blocks. -/
structure RequestFits (fuel : ℕ) (c : ReqHead σ) (q : NbdRequest) : Prop where
  /-- What is accessed. -/
  accesses : AllFit cfg c.mem.ctx.minimumBlockSize (roundAt env cfg fuel c).trace
  /-- The chunks. -/
  chunk : ∀ x, InLoop env cfg c q x → x.sendflag ≠ 0 →
    (x.chunk c.mem.ctx.minimumBlockSize).bufblksz.toNat * c.mem.ctx.minimumBlockSize.toNat =
        (x.chunk c.mem.ctx.minimumBlockSize).byteread.toNat ∧
      (x.chunk c.mem.ctx.minimumBlockSize).byteread.toNat ≤ cfg.bufferLen

/-- **Transmission index safety.** Whatever the client sends and the plugin and the transport do, a
request is served within bounds if and only if its type has a name; and a transmission phase in
which all requests have is within bounds. -/
theorem transmission_indices_iff (env : Env Call Resp σ) (cfg : Config) (fuel : ℕ)
    (s : Shared) (w : σ) :
    (∀ c, AtRequest env cfg fuel (fun _ => True) s w c → ∀ q, requestAt env c = some q →
      (RequestFits env cfg fuel c q ↔ q.type.toNat < nbdCommands.length)) ∧
    ((∀ c, AtRequest env cfg fuel (fun _ => True) s w c → ∀ q, requestAt env c = some q →
        q.type.toNat < nbdCommands.length) →
      AllFit cfg s.ctx.minimumBlockSize ((transmissionPhase cfg fuel).run env s w).trace) := by
  refine ⟨fun c h q hq => ?_, fun hall => ?_⟩
  · obtain ⟨rfl, hc⟩ := h.frame
    refine ⟨fun hfits => (round_request_fits hc hq).mp hfits.accesses, fun ht => ?_⟩
    refine ⟨(round_request_fits hc hq).mpr ht, fun x hx _ => ?_⟩
    have hchunk := (inLoop_paced hc hx).1.chunk
    exact ⟨hchunk.bytes.symm, hchunk.byteread_le⟩
  · rw [run_transmissionPhase]
    refine allFit_append (h := [_, _]).mpr ⟨allFit_two trivial trivial, fun e he => ?_⟩
    obtain ⟨⟨_, r⟩, hin, rfl⟩ := List.mem_map.mp he
    obtain ⟨c, hc, hin⟩ := mem_trace_loop env hin
    obtain ⟨rfl, hok⟩ := AtRequest.frame hc
    cases hq : requestAt env c with
    | none =>
      have hnone : wp env (serveIn cfg fuel c.mem c.x)
          (fun _ _ _ h => AllFit cfg c.mem.ctx.minimumBlockSize h) c.mem
        c.env := wp_round_none hq (allFit_one trivial)
      exact hnone _ (List.mem_map_of_mem hin)
    | some q =>
      exact (round_request_fits hok hq).mpr (hall c hc q hq) _ (List.mem_map_of_mem hin)

end Requests

namespace Sample

/-- The whole export is read within bounds. -/
theorem transmission_indices_iff_whole : RequestFits (wire quiet) Sample.cfg 8
    (firstHead (wire quiet) Sample.cfg Sample.mem (Sample.client (ask NBD_CMD_READ 0 8).toBytes))
    (ask NBD_CMD_READ 0 8) :=
  ((transmission_indices_iff (wire quiet) Sample.cfg 8 Sample.mem
    (Sample.client (ask NBD_CMD_READ 0 8).toBytes)).1 _ .refl (ask NBD_CMD_READ 0 8)
      (by decide +kernel)).mpr (by decide)

/-- **A request of a type beyond the table** is looked up in it. -/
theorem request_beyond_table :
    ¬ ∀ (σ : Type) (env : Env Call Resp σ) (cfg : Config) (fuel : ℕ) (s : Shared) (w : σ),
      1 ≤ s.ctx.minimumBlockSize →
      AllFit cfg s.ctx.minimumBlockSize ((transmissionPhase cfg fuel).run env s w).trace := by
  intro h
  have hfit :=
    h _ (wire quiet) Sample.cfg 8 Sample.mem (Sample.client (ask 8 0 0).toBytes) (by decide)
    (.note (.index .nbdCommands 8)) (by decide +kernel)
  exact absurd hfit (Nat.lt_irrefl 8)

end Sample

end LwNBD
