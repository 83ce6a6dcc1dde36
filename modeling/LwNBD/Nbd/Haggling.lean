import LwNBD.Nbd.Listing
import LwNBD.Nbd.Opens

/-!
# Option haggling

A handshake over the lossless transport, with a client that sends options: what it reads, what it
answers, and where it stops.

## The model

* `ClientOption` — an option as a client sends it.
* `ClientOption.answer` — what it is answered with, if it does not end the handshake.
* `HaggledTo` — control is back at the head of the option loop after some options, all of which
  were read and answered.
* `EndsWell` — what an option that ends the handshake is to do.

## What is proved

* `readOption_wire` — an option is read, and exactly its bytes.
* `HaggledTo.next`, `HaggledTo.run` — an option that does not end the handshake is answered, and so
  are any number of them.
* `HaggledTo.round_ends` — an option that ends the handshake ends it well, if looking up the export
  does.
* `haggling` — all is as it is to be, if and only if the export that is asked for, where there is
  one of that name, has a plugin and its `get_size`.
-/

namespace LwNBD

open Resumption

/-! ### What a client sends -/

/-- An option, as a client sends it. -/
structure ClientOption where
  /-- `NBD_OPT_*`. -/
  option : UInt32
  /-- The data. -/
  data : Bytes
  deriving DecidableEq

namespace ClientOption

/-- What is sent before the data. -/
def header (o : ClientOption) : NbdNewOption := ⟨NBD_NEW_VERSION, o.option, .ofNat o.data.length⟩

/-- The bytes of an option. -/
def toBytes (o : ClientOption) : Bytes := o.header.toBytes ++ o.data

/-- It ends the handshake. -/
def Ends (o : ClientOption) : Prop := o.option = NBD_OPT_EXPORT_NAME ∨ o.option = NBD_OPT_ABORT

instance (o : ClientOption) : Decidable o.Ends := inferInstanceAs (Decidable (_ ∨ _))

/-- The name of the export that it asks for, if it has data. -/
def asked (o : ClientOption) : Option Bytes := if o.data = [] then none else some (cstr o.data)

/-- What an option is answered with, if it does not end the handshake. -/
def answer (reg : Registry) (o : ClientOption) : Bytes :=
  if o.option = NBD_OPT_LIST then listReply reg
    else fixedNewOptionReply o.option NBD_REP_ERR_UNSUP 0

theorem length_toBytes (o : ClientOption) : o.toBytes.length = 16 + o.data.length := by
  simp [toBytes]

end ClientOption

/-- A string that was stored, with a `NUL` after it. -/
theorem cstr_store {buf data : Bytes} (h : data.length < buf.length) :
    cstr ((store buf data).set data.length 0) = cstr data := by
  obtain ⟨a, rest, hrest⟩ : ∃ a rest, buf.drop data.length = a :: rest :=
    List.exists_cons_of_length_pos (by rw [List.length_drop]; omega)
  have hstore : store buf data = data ++ a :: rest := by
    rw [store, hrest, List.take_of_length_le]
    rw [← hrest, List.length_append, List.length_drop]
    omega
  rw [hstore, List.set_append_right _ _ (Nat.le_refl _), Nat.sub_self,
    List.set_cons_zero, cstr, cstr, List.takeWhile_append, List.takeWhile_cons_of_neg (by decide),
    List.append_nil]
  split_ifs with hall
  · exact ((List.takeWhile_prefix _).eq_of_length hall).symm
  · rfl

/-! ### Reading an option -/

section Wire

variable {β : Type} {host : Env Call Resp β} {cfg : Config} {client : NbdClient}
  {s : Shared} {w : Wire β} {o : ClientOption} {rest : Bytes} {x : OptVars}

/-- An option is read, and exactly its bytes. -/
theorem readOption_wire (hnew : x.newOpt.length = 16) (hbuf : x.nbdBuffer.length = cfg.bufferLen)
    (hlen : o.data.length < cfg.bufferLen) (hin : w.input = o.toBytes ++ rest) :
    wp (wire host) (readOption cfg x) (fun r s' w' _ => s' = s ∧ w'.input = rest ∧
      w'.output = w.output ∧ ∃ y, r = .ret (some (y, o.header)) ∧ y.c = x.c ∧ y.newOpt.length = 16 ∧
      y.nbdBuffer.length = cfg.bufferLen ∧
        askedName y o.header.optlen = o.asked) s w := by
  have hsize := cfg.bufferLen_le
  have hopt : o.header.optlen.toNat = o.data.length := by
    rw [ClientOption.header, UInt32.toNat_ofNat', Nat.mod_eq_of_lt (by omega)]
  have h16 : 16 ≤ w.input.length := by
    rw [hin, List.length_append, o.length_toBytes]
    omega
  have hhead : w.input.take 16 = o.header.toBytes := by
    rw [hin, ClientOption.toBytes, List.append_assoc, List.take_left' (by simp)]
  have hdata : w.input.drop 16 = o.data ++ rest := by
    rw [hin, ClientOption.toBytes, List.append_assoc, List.drop_left' (by simp)]
  have hread {r : Recvd 16} (hr : r.data = w.input.take 16) :
      NbdNewOption.ofBytes (store x.newOpt r.data) = o.header := by
    rw [hr, hhead, store_full (by simp [hnew]), NbdNewOption.ofBytes_toBytes]
  rw [readOption, wp_bind]
  refine wp_readNewOption (fun r w₁ hr hbad => ?_) (fun r w₁ hr _ _ => ?_)
  · obtain ⟨hret, hd, -⟩ := wire_recv_eq hr h16
    rcases hbad with hbad | hbad
    · rw [hret] at hbad
      exact absurd hbad (by decide)
    · rw [hread hd] at hbad
      exact absurd rfl hbad
  · obtain ⟨-, hd, rfl⟩ := wire_recv_eq hr h16
    have hnew' : (NbdNewOption.hostOrder (store x.newOpt r.data)).length = 16 :=
      NbdNewOption.length_hostOrder (by rw [length_store, hnew])
    simp only [Post.seq_ret, wp_bind, wp_note, hread hd]
    rw [if_neg (by omega), wp_bind]
    have hfits : o.header.optlen.toNat ≤ (w.input.drop 16).length := by
      rw [hdata, hopt, List.length_append]
      omega
    refine wp_readOptionData (fun h0 => ?_) (fun r w₂ hr h0 hshort => ?_)
      (fun r w₂ _ _ _ hover => ?_) (fun r w₂ hr h0 _ _ => ?_)
    · have hnil : o.data = [] := by
        rw [← List.length_eq_zero_iff, ← hopt, h0]
        rfl
      rw [hnil, List.nil_append] at hdata
      refine ⟨rfl, hdata, rfl, _, rfl, rfl, hnew', hbuf, ?_⟩
      rw [askedName, h0, ClientOption.asked, if_pos hnil]
      rfl
    · obtain ⟨hret, -, -⟩ := wire_recv_eq hr hfits
      have hfull : asUInt32 r.ret = o.header.optlen := by
        have hlt := o.header.optlen.toNat_lt
        rw [hret, asUInt32, UInt32.ofInt, ← UInt32.toNat_inj, UInt32.toNat_ofNat']
        omega
      rw [hfull] at hshort
      exact absurd hshort (UInt32.lt_irrefl _)
    · exact absurd hover (by omega)
    · obtain ⟨-, hd', rfl⟩ := wire_recv_eq hr hfits
      have hne : o.data ≠ [] := fun hnil => h0 (by rw [ClientOption.header, hnil]; rfl)
      have hstored : r.data = o.data :=
        hd'.trans ((congrArg (List.take _) hdata).trans (List.take_left' hopt.symm))
      refine ⟨rfl, ?_, rfl, _, rfl, rfl, hnew', ?_, ?_⟩
      · change (w.input.drop 16).drop o.header.optlen.toNat = rest
        rw [hdata, hopt, List.drop_left' rfl]
      · rw [List.length_set, length_store, hbuf]
      · rw [askedName, if_pos (UInt32.pos_iff_ne_zero.mpr h0), ClientOption.asked, if_neg hne]
        dsimp only
        rw [hstored, hopt, cstr_store (by omega)]

/-- A client with the flags of the server is greeted, and its flags are read. -/
theorem greet_wire (hin : w.input = toBe32 s.ctx.gflags ++ rest) :
    wp (wire host) (greet client) (fun r s' w' _ => r = .ret (some s.ctx.gflags) ∧
      s' = s ∧ w'.input = rest ∧ w'.output = w.output ++ newHandshake s.ctx.gflags.toUInt16)
      s w := by
  have hgreeting : (newHandshake s.ctx.gflags.toUInt16).length = 18 := by simp [newHandshake]
  simp only [greet, wp_bind, wp_perform, wp_ctxNow, wp_syncSend, Post.seq_ret]
  rcases hc : wire host w (.uninit 4) with ⟨cflags, w₁⟩
  obtain ⟨-, hin₁, hout₁⟩ := wire_host_eq hc rfl rfl
  rcases hk : wire host w₁ (.send client.sock .newHs (newHandshake s.ctx.gflags.toUInt16) 0) with
    ⟨k, w₂⟩
  obtain ⟨hret, rfl⟩ := wire_send_eq hk
  have hsent : asSize k.1 = 18 := by
    rw [hret, hgreeting]
    rfl
  rw [if_neg (by rw [hsent]; decide), wp_bind, wp_syncRecv, Post.seq_ret]
  have h4 : 4 ≤ w₁.input.length := by
    rw [hin₁, hin, List.length_append, length_toBe32]
    omega
  rcases hr : wire host { w₁ with output := w₁.output ++ newHandshake s.ctx.gflags.toUInt16 }
    (.recv client.sock .cflags 4) with ⟨r, w₃⟩
  obtain ⟨hret', hd, rfl⟩ := wire_recv_eq hr h4
  have hflags : be32 (store cflags.1 r.data) = s.ctx.gflags := by
    have hdata : r.data = toBe32 s.ctx.gflags := by
      refine hd.trans ?_
      dsimp only
      rw [hin₁, hin, List.take_left' (length_toBe32 _)]
    rw [hdata, store_full (by rw [length_toBe32, cflags.2]), be32_toBe32]
  rw [if_neg (by rw [hret']; decide), wp_bind, wp_ctxNow, Post.seq_ret, if_neg (not_not.mpr hflags),
    wp_pure]
  refine ⟨by rw [hflags], rfl, ?_, ?_⟩
  · dsimp only
    rw [hin₁, hin, List.drop_left' (length_toBe32 _)]
  · dsimp only
    rw [hout₁]

/-! ### The option loop -/

/-- Control is back at the head of the option loop after these options: they were read and
answered, nothing else was sent, and neither the client's record nor the memory was changed. -/
structure HaggledTo (host : Env Call Resp β) (cfg : Config) (client : NbdClient)
    (s : Shared) (w : Wire β) (before : List ClientOption) (c : OptHead (Wire β)) : Prop where
  /-- The head is reached. -/
  reached : AtOption (wire host) cfg client s w c
  /-- The client's record. -/
  client : c.x.c = client
  /-- The memory. -/
  mem : c.mem = s
  /-- What was sent. -/
  output : c.env.output =
    w.output ++ newHandshake s.ctx.gflags.toUInt16 ++ before.flatMap (ClientOption.answer s.reg)
  /-- `new_opt`. -/
  newOpt : c.x.newOpt.length = 16
  /-- `nbd_buffer`. -/
  nbdBuffer : c.x.nbdBuffer.length = cfg.bufferLen

variable {before os : List ClientOption} {c : OptHead (Wire β)} {cflags : UInt32}

/-- The options are read with the flags of the server. -/
theorem HaggledTo.reaches (h : HaggledTo host cfg client s w before c) :
    ((greet client).run (wire host) s w).out = .ret (some s.ctx.gflags) ∧
      Reaches (wire host) (serveOption cfg s.ctx.gflags) (fun _ => True)
      (firstOption (wire host) cfg client s w)
        c := by
  obtain ⟨cflags, hg, hc⟩ := h.reached
  obtain ⟨-, -, -, ho | ho⟩ : wp (wire host) (greet client) _ s w := greet_greets
  · cases hg.symm.trans ho
  · cases hg.symm.trans ho
    exact ⟨ho, hc⟩

theorem haggledTo_first (hin : w.input = toBe32 s.ctx.gflags ++ rest) :
    HaggledTo host cfg client s w [] (firstOption (wire host) cfg client s w) ∧
      (firstOption (wire host) cfg client s w).env.input = rest := by
  obtain ⟨hout, hmem, hinput, hsent⟩ : wp (wire host) (greet client) _ s w := greet_wire hin
  refine ⟨⟨⟨_, hout, .refl⟩, rfl, hmem, ?_, ?_, ?_⟩, ?_⟩
  · rw [List.flatMap_nil, List.append_nil, ← hsent]
    rfl
  · exact (wire host ((greet client).run (wire host) s w).env (.uninit 16)).1.2
  · exact (wire host (wire host ((greet client).run (wire host) s w).env (.uninit 16)).2
      (.uninit cfg.bufferLen)).1.2
  · rw [firstOption_input, hinput]

theorem HaggledTo.option (h : HaggledTo host cfg client s w before c)
    (hlen : o.data.length < cfg.bufferLen) (hin : c.env.input = o.toBytes ++ rest) :
    ∃ y, optionAt (wire host) cfg c = some (y, o.header) ∧ y.c = client ∧ y.newOpt.length = 16 ∧
      y.nbdBuffer.length = cfg.bufferLen ∧ askedName y o.header.optlen = o.asked ∧
      (readOptionAt (wire host) cfg c).env.input = rest ∧
      (readOptionAt (wire host) cfg c).env.output = c.env.output := by
  obtain ⟨-, hrest, hout, y, hret, hc, hnew, hbuf, hname⟩ :
      wp (wire host) (readOption cfg c.x) _ c.mem c.env :=
    readOption_wire h.newOpt h.nbdBuffer hlen hin
  refine ⟨y, ?_, hc.trans h.client, hnew, hbuf, hname, hrest, hout⟩
  rw [optionAt, readOptionAt, hret]

/-- An option that does not end the handshake is answered. -/
theorem handleOption_wire (hfits : ∀ i, (s.reg.get i).Fits) (ho : ¬ o.Ends) :
    wp (wire host) (handleOption cflags x o.option o.header.optlen)
    (fun r s' w' _ => r = .ret (.next x) ∧ s' = s ∧
      w' = { w with output := w.output ++ o.answer s.reg }) s w := by
  obtain ⟨hexport, habort⟩ := not_or.mp ho
  rw [handleOption, if_neg hexport, if_neg habort, ClientOption.answer]
  split_ifs with hlist
  · rw [hlist]
    exact optList_sends host w hfits
  · rw [optDefault, wp_bind]
    refine wp_mono _ ?_ (sendOptionReply_sends o.option NBD_REP_ERR_UNSUP 0 0 β host w)
    rintro r s' w' h ⟨rfl, rfl, rfl⟩
    exact ⟨rfl, rfl, rfl⟩

/-- An option that does not end the handshake: it is answered, and another is read. -/
theorem HaggledTo.next (h : HaggledTo host cfg client s w before c)
    (hfits : ∀ i, (s.reg.get i).Fits) (ho : ¬ o.Ends) (hlen : o.data.length < cfg.bufferLen)
    (hin : c.env.input = o.toBytes ++ rest) :
    ∃ c', HaggledTo host cfg client s w (before ++ [o]) c' ∧ c'.env.input = rest := by
  obtain ⟨y, hopt, hclient, hnew, hbuf, -, hrest, hout⟩ := h.option hlen hin
  have hround : wp (wire host) (serveOption cfg s.ctx.gflags c.x)
      (fun r s' w' _ => r = .ret (.next y) ∧ s' = s ∧ w'.input = rest ∧
      w'.output = c.env.output ++ o.answer s.reg) c.mem c.env := by
    refine wp_serveOption (by simp [hopt]) fun y' t hy' _ _ => ?_
    cases hopt.symm.trans hy'
    rw [h.mem]
    refine wp_mono _ ?_ (handleOption_wire hfits ho)
    rintro r s' w' t ⟨rfl, rfl, rfl⟩
    exact ⟨rfl, rfl, hrest, by rw [hout]⟩
  obtain ⟨hg, hreach⟩ := h.reaches
  obtain ⟨hret, hmem, hin', hout'⟩ := hround
  refine ⟨⟨y, _, _⟩, ⟨⟨_, hg, hreach.tail ⟨trivial, hret, rfl, rfl⟩⟩, hclient, hmem,
    ?_, hnew, hbuf⟩, hin'⟩
  rw [List.flatMap_append, List.flatMap_singleton, ← List.append_assoc, ← h.output]
  exact hout'

/-- Any number of options that do not end the handshake. -/
theorem HaggledTo.run (h : HaggledTo host cfg client s w before c) (hfits : ∀ i, (s.reg.get i).Fits)
    (hos : ∀ o ∈ os, ¬ o.Ends ∧ o.data.length < cfg.bufferLen)
    (hin : c.env.input = os.flatMap ClientOption.toBytes ++ rest) :
    ∃ c', HaggledTo host cfg client s w (before ++ os) c' ∧ c'.env.input = rest := by
  induction os generalizing before c with
  | nil =>
    rw [List.append_nil]
    exact ⟨c, h, hin⟩
  | cons o os ih =>
    rw [List.flatMap_cons, List.append_assoc] at hin
    obtain ⟨hends, hlen⟩ := hos o List.mem_cons_self
    obtain ⟨c', h', hin'⟩ := h.next hfits hends hlen hin
    rw [List.append_cons]
    exact ih h' (fun o ho => hos o (.tail _ ho)) hin'

/-! ### The option that ends the handshake -/

/-- The export that an option asks for is looked up, at a head. -/
def lookupAt (host : Env Call Resp β) (cfg : Config) (client : NbdClient) (o : ClientOption)
    (c : OptHead (Wire β)) : Result Shared Call Resp (Wire β) (Option ContextIdx) :=
  (lookup client o.asked).run (wire host) c.mem (readOptionAt (wire host) cfg c).env

/-- What an option that ends the handshake is to do, at a head: how the handshake ends, the memory
then, and what was sent. -/
def EndsWell (host : Env Call Resp β) (cfg : Config) (client : NbdClient) (o : ClientOption)
    (c : OptHead (Wire β)) (out : Outcome (ℤ × NbdClient)) (s' : Shared) (output : Bytes) : Prop :=
  if o.option = NBD_OPT_ABORT then
    out = .ret (0, client) ∧ s' = { c.mem with ctx := { c.mem.ctx with state := .abort } } ∧
      output = c.env.output ++ fixedNewOptionReply NBD_OPT_ABORT NBD_REP_ACK 0
  else match (lookupAt host cfg client o c).out with
    | .ret (some i) =>
      out = .ret (0, { client with ctx := some i }) ∧
        s'.ctx = { c.mem.ctx with state := .transmission } ∧
        output = c.env.output ++ exportReply c.mem.ctx c.mem.ctx.gflags
    | .ret none =>
      out = .ret (-1, { client with ctx := none }) ∧ s'.ctx = c.mem.ctx ∧ output = c.env.output
    | .halt _ => False

/-- Looking up an export neither sends nor receives. -/
theorem lookupAt_still : (lookupAt host cfg client o c).mem.ctx = c.mem.ctx ∧
    (lookupAt host cfg client o c).env.input = (readOptionAt (wire host) cfg c).env.input ∧
    (lookupAt host cfg client o c).env.output = (readOptionAt (wire host) cfg c).env.output := by
  have hl : LookedUp c.mem o.asked _ _ (lookupAt host cfg client o c).trace :=
    lookup_lookedUp client o.asked
  refine ⟨hl.ctx, wire_still host _ _ _ fun e he => ?_⟩
  have hlooks := hl.calls e he
  unfold LooksUp at hlooks
  split at hlooks <;> first | exact ⟨rfl, rfl⟩ | exact hlooks.elim

/-- An option that ends the handshake ends it well, unless looking up the export goes wrong. -/
theorem HaggledTo.round_ends (h : HaggledTo host cfg client s w before c) (ho : o.Ends)
    (hlen : o.data.length < cfg.bufferLen) (hin : c.env.input = o.toBytes ++ rest)
    (hfound : o.option = NBD_OPT_EXPORT_NAME → ∃ e, (lookupAt host cfg client o c).out = .ret e) :
    wp (wire host) (serveOption cfg s.ctx.gflags c.x) (fun r s' w' _ => w'.input = rest ∧
      ∃ z, r = .ret (.done z) ∧ EndsWell host cfg client o c (.ret z) s' w'.output)
      c.mem c.env := by
  obtain ⟨y, hopt, rfl, -, -, hname, hrest, hout⟩ := h.option hlen hin
  refine wp_serveOption (by simp [hopt]) fun y' t hy' _ _ => ?_
  cases hopt.symm.trans hy'
  rcases ho with ho | ho
  · have hnot : ¬ o.option = NBD_OPT_ABORT := by
      rw [ho]
      decide
    have hhandle : handleOption s.ctx.gflags y o.header.option o.header.optlen =
        optExportName s.ctx.gflags y o.header.optlen := if_pos ho
    rw [hhandle]
    refine wp_optExportName ?_
    rw [hname]
    obtain ⟨e, he⟩ := hfound ho
    obtain ⟨hctx, hin', hout'⟩ : (lookupAt host cfg y.c o c).mem.ctx = c.mem.ctx ∧ _ :=
      lookupAt_still
    change Post.thenExport _ _ _ _ (lookupAt host cfg y.c o c).out (lookupAt host cfg y.c o c).mem
      (lookupAt host cfg y.c o c).env (lookupAt host cfg y.c o c).trace
    rw [he]
    cases e with
    | none =>
      refine ⟨fun _ => ⟨hin'.trans hrest, _, rfl, ?_⟩, by simp⟩
      rw [EndsWell, if_neg hnot, he]
      exact ⟨rfl, hctx, hout'.trans hout⟩
    | some i =>
      refine ⟨by simp, ?_⟩
      rintro _ ⟨⟩ k w₁ hk
      obtain ⟨hret, rfl⟩ := wire_send_eq hk
      refine ⟨fun hlt => ?_, fun _ => ⟨hin'.trans hrest, _, rfl, ?_⟩⟩
      · rw [hret, length_exportReply] at hlt
        rcases exportReplyLen_cases s.ctx.gflags with hl | hl <;> rw [hl] at hlt <;>
          exact absurd hlt (by decide)
      · rw [EndsWell, if_neg hnot, he, h.mem] at *
        refine ⟨rfl, ?_, ?_⟩
        · dsimp only
          rw [hctx]
        · dsimp only
          rw [hout', hout, hctx]
  · have hnot : ¬ NBD_OPT_ABORT = NBD_OPT_EXPORT_NAME := by decide
    have hhandle : handleOption s.ctx.gflags y o.header.option o.header.optlen =
        optAbort y NBD_OPT_ABORT := by
      change handleOption s.ctx.gflags y o.option o.header.optlen = _
      rw [ho, handleOption, if_neg hnot, if_pos rfl]
    rw [hhandle]
    refine wp_optAbort (fun k w₁ hk hlt => ?_) (fun k w₁ hk _ => ?_)
    · rw [(wire_send_eq hk).1] at hlt
      exact absurd hlt (by decide)
    · obtain ⟨-, rfl⟩ := wire_send_eq hk
      refine ⟨hrest, _, rfl, ?_⟩
      rw [EndsWell, if_pos ho, ← hout]
      exact ⟨rfl, rfl, rfl⟩

variable (host) (cfg) (client) (c) in
/-- The lookup of an export that is asked for by its name. -/
theorem out_lookupAt (hdata : o.data ≠ []) :
    ∃ params nbParams w', (lookupAt host cfg client o c).out =
    ((findContext (yuarelParse (cstr o.data)).path params nbParams).run
      (wire host) c.mem w').out := by
  obtain ⟨params, nbParams, w', hout, -⟩ :=
    run_lwnbdGetContext (wire host) c.mem (readOptionAt (wire host) cfg c).env (cstr o.data)
  refine ⟨params, nbParams, w', ?_⟩
  rw [lookupAt, ClientOption.asked, if_neg hdata]
  exact hout

end Wire

/-! ### The negotiation -/

/-- What an option asks for has a plugin that tells its size, if it is there at all. -/
def ClientOption.Served (reg : Registry) (o : ClientOption) : Prop :=
  o.option = NBD_OPT_EXPORT_NAME → o.data ≠ [] → reg.Served (yuarelParse (cstr o.data)).path

/-- The negotiation of the options `os`, with a client that has the flags of the server, over the
lossless transport: after any of them, none of which ends the handshake, control is at the head of
the option loop, they were all answered, and the rest is to be read; and if the next ends the
handshake, it ends well, and what follows is not read. -/
def NegotiatesWell (cfg : Config) (client : NbdClient) (s : Shared) (os : List ClientOption)
    (rest : Bytes) : Prop :=
  ∀ (β : Type) (host : Env Call Resp β) (w : Wire β),
    w.input = toBe32 s.ctx.gflags ++ (os.flatMap ClientOption.toBytes ++ rest) →
    ∀ before after, os = before ++ after → (∀ o ∈ before, ¬ o.Ends) →
      ∃ c, HaggledTo host cfg client s w before c ∧
        c.env.input = after.flatMap ClientOption.toBytes ++ rest ∧ ∀ o ∈ after.head?, o.Ends →
        ∀ fuel, w.input.length < fuel →
          let x := (protocolHandshake cfg fuel client).run (wire host) s w
          x.env.input = after.tail.flatMap ClientOption.toBytes ++ rest ∧
            EndsWell host cfg client o c x.out x.mem x.env.output

section Negotiation

variable {cfg : Config} {client : NbdClient} {s : Shared} {os : List ClientOption} {rest : Bytes}

/-- The negotiation goes well, if the option that ends it asks for what is served. -/
theorem negotiatesWell (hfits : ∀ i, (s.reg.get i).Fits)
    (hlen : ∀ o ∈ os, o.data.length < cfg.bufferLen)
    (hserved : ∀ before o after, os = before ++ o :: after → (∀ b ∈ before, ¬ b.Ends) →
      o.Served s.reg) : NegotiatesWell cfg client s os rest := by
  rintro β host w hin before after rfl hbefore
  obtain ⟨hfirst, hin₀⟩ : HaggledTo host cfg client s w [] _ ∧ _ := haggledTo_first hin
  rw [List.flatMap_append, List.append_assoc] at hin₀
  obtain ⟨c, hc, hin'⟩ :=
    hfirst.run hfits (fun o ho => ⟨hbefore o ho, hlen o (List.mem_append_left _ ho)⟩) hin₀
  refine ⟨c, hc, hin', fun o ho hends fuel hfuel => ?_⟩
  obtain ⟨after, rfl⟩ : ∃ after', after = o :: after' := by
    cases after with
    | nil => cases ho
    | cons o' after' => cases ho; exact ⟨after', rfl⟩
  rw [List.flatMap_cons, List.append_assoc] at hin'
  have hfound (hexport : o.option = NBD_OPT_EXPORT_NAME) :
      ∃ e, (lookupAt host cfg client o c).out = .ret e := by
    by_cases hdata : o.data = []
    · refine ⟨client.ctx, ?_⟩
      rw [lookupAt, ClientOption.asked, if_pos hdata]
      rfl
    · obtain ⟨params, nbParams, w', hout⟩ := out_lookupAt host cfg client c hdata
      rw [hout]
      refine findContext_ret _ ?_
      rw [hc.mem]
      exact hserved before o after rfl hbefore hexport hdata
  have hround :=
    hc.round_ends hends (hlen o (List.mem_append_right _ List.mem_cons_self)) hin' hfound
  obtain ⟨hrest, z, hz, hwell⟩ := hround
  obtain ⟨hg, hreach⟩ := hc.reaches
  obtain ⟨hout, hmem, henv⟩ : ((protocolHandshake cfg fuel client).run (wire host) s w).out = _ ∧
      _ := handshake_loop hg
  have hends' := handshake_ends cfg client s host hfuel
  rw [hout] at hends'
  obtain ⟨hret, hmem', henv'⟩ := loop_of_reaches _ hreach hz fuel hends'
  dsimp only
  rw [hout, hmem, henv, hret, hmem', henv']
  exact ⟨hrest, hwell⟩

theorem NegotiatesWell.served (h : NegotiatesWell cfg client s os rest)
    {before after : List ClientOption} {o : ClientOption} (hos : os = before ++ o :: after)
    (hbefore : ∀ b ∈ before, ¬ b.Ends) : o.Served s.reg := by
  intro hexport hdata
  by_contra hlost
  obtain ⟨c, hc, -, hends⟩ := h Unit quiet ⟨_, [], ()⟩ rfl before (o :: after) hos hbefore
  obtain ⟨-, hwell⟩ := hends o rfl (.inl hexport) _ (Nat.lt_succ_self _)
  obtain ⟨params, nbParams, w', hout⟩ := out_lookupAt quiet cfg client c hdata
  rw [hc.mem, findContext_undefined _ hlost fun _ _ _ _ _ => rfl] at hout
  have hnot : ¬ o.option = NBD_OPT_ABORT := by
    rw [hexport]
    decide
  rw [EndsWell, if_neg hnot, hout] at hwell
  exact hwell

end Negotiation

/-- **Option haggling**, with any client, any table of contexts and any options whose data leave
room in the buffer: the negotiation goes well if and only if the first option that ends it, if it
asks for an export by a name that some context has, asks for one with a plugin that has
`get_size`. -/
theorem haggling (cfg : Config) (client : NbdClient) (s : Shared) (hfits : ∀ i, (s.reg.get i).Fits)
    (os : List ClientOption) (hlen : ∀ o ∈ os, o.data.length < cfg.bufferLen) (rest : Bytes) :
    NegotiatesWell cfg client s os rest ↔
      ∀ before o after, os = before ++ o :: after → (∀ b ∈ before, ¬ b.Ends) → o.Served s.reg :=
  ⟨fun h _ _ _ hos hbefore => h.served hos hbefore, negotiatesWell hfits hlen⟩

namespace Sample

/-- An `NBD_OPT_LIST`, an option that is not supported, and an `NBD_OPT_ABORT`. -/
def leaving : List ClientOption := [⟨NBD_OPT_LIST, []⟩, ⟨7, [0]⟩, ⟨NBD_OPT_ABORT, []⟩]

/-- `haggling`, with a client that leaves. -/
theorem haggling_leaving :
    NegotiatesWell Sample.cfg ⟨5, .handshake, some slot⟩ ⟨Sample.ctx,
      exporting.reg⟩ leaving [1] := by
  refine (haggling Sample.cfg ⟨5, .handshake, some slot⟩ ⟨Sample.ctx, exporting.reg⟩
    exporting_reachable.kept.fits
    leaving (by decide) [1]).mpr fun before o after hos _ hexport => ?_
  have hmem : o ∈ leaving := by
    rw [hos]
    simp
  have hnone : ∀ o ∈ leaving, o.option ≠ NBD_OPT_EXPORT_NAME := by decide
  exact absurd hexport (hnone o hmem)

/-- An `NBD_OPT_EXPORT_NAME` of the name `/`. -/
def slash : ClientOption := ⟨NBD_OPT_EXPORT_NAME, [47]⟩

/-- **A client that asks for `/`** gets no answer: its path is empty, and so is the name of the
context that was created for the session, which has no plugin. -/
theorem haggling_lost :
    ¬ ∀ (cfg : Config) (client : NbdClient) (s : Shared) (os : List ClientOption) (rest : Bytes),
      (∀ i, (s.reg.get i).Fits) → (∀ o ∈ os, o.data.length < cfg.bufferLen) →
      NegotiatesWell cfg client s os rest := by
  intro h
  have hfits : ∀ i, ((Sample.mem.taken mem_free).reg.get i).Fits := by decide +kernel
  have hwell :=
    h Sample.cfg ⟨5, .handshake, some slot⟩ (Sample.mem.taken mem_free) [slash] [] hfits (by decide)
  have hslot : (Sample.mem.taken mem_free).reg.getContextString
      (yuarelParse (cstr slash.data)).path = some slot := by
    decide +kernel
  have hnull : ((Sample.mem.taken mem_free).reg.get slot).p = none := by decide +kernel
  have hserved : slash.Served (Sample.mem.taken mem_free).reg :=
    hwell.served (List.nil_append _).symm (by simp)
  obtain ⟨p, hp, -⟩ := hserved rfl (by decide) slot hslot
  rw [hnull] at hp
  cases hp

end Sample

end LwNBD
