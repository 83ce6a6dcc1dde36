import LwNBD.Nbd.Options
import LwNBD.Nbd.Requests
import LwNBD.Nbd.Sample

/-!
# The export that is served

Whether a client is served the export it asks for. `NBD_OPT_EXPORT_NAME` looks the name up
and stores the context it finds in `c->ctx`, of the client's record; but the reply, and all
of the transmission phase, are about `ctx`, the record of the server. The client is served
what it asked for if and only if that record describes it.

The phases are taken one after the other, the transmission phase on what the handshake
leaves; how the session loop goes from one to the other is a matter of its own.

## What is proved

* `Negotiated.selected` — a handshake that selects an export by its name answers with the size
  and the flags of `ctx`.
* `round_rangeChecked` — the range check is against the size of `ctx`.
* `served_is_selected` — the export that is served is the one selected if and only if `ctx` has
  its size, its flags, and the plugin and handle through which it is read.
-/

namespace LwNBD

open Resumption

/-! ### What is to be shown -/

/-- An export reply has the size of the context `e`, and the flags of its plugin `p`. -/
def AnsweredWith (e : Context) (p : Plugin) (h : List Ev) : Prop :=
  ∀ sock buf flags, ∀ k : Sent buf.length, (⟨.send sock .handshakeFinish buf flags, k⟩ : Ev) ∈ h →
    buf.slice 0 8 = toBe64 e.exportsize.toUInt64 ∧ be16 (buf.slice 8 2) = nbdifyEflags p

/-- A call that reads, writes or flushes goes to this plugin, with this handle. -/
def Call.Through (p : Plugin) (handle : Handle) : Call → Prop
  | .pread p' handle' _ _ | .pwrite p' handle' _ _ _ | .flush p' handle' =>
    p' = p ∧ handle' = handle
  | _ => True

/-- The replies to requests. -/
def answers (h : List Ev) : List Bytes := h.filterMap fun
  | ⟨.send _ .reply buf _, _⟩ => some buf
  | _ => none

@[simp] theorem answers_append (h h' : List Ev) : answers (h ++ h') = answers h ++ answers h' :=
  List.filterMap_append

/-- A request is checked against this size. -/
structure RangeChecked (exportsize : Int64) (q : NbdRequest) (h : List Ev) : Prop where
  /-- A READ is refused if it is out of range. -/
  read : q.type = NBD_CMD_READ →
    (simpleReply NBD_EIO q.handle ∈ answers h ↔ outOfRange exportsize q = true)
  /-- A WRITE that is refused for it is out of range. -/
  refused : q.type = NBD_CMD_WRITE → simpleReply NBD_ENOSPC q.handle ∈ answers h →
    outOfRange exportsize q = true
  /-- A WRITE that succeeds is in range. -/
  accepted : q.type = NBD_CMD_WRITE → simpleReply NBD_SUCCESS q.handle ∈ answers h →
    outOfRange exportsize q = false

/-- The context `e` is served, through its plugin `p`, when the transmission phase is entered
with memory `s`: whatever the client asks for and whatever its environment does. -/
structure ServedFrom (cfg : Config) (s : Shared) (e : Context) (p : Plugin) : Prop where
  /-- Its plugin is called, with its handle. -/
  through : ∀ (σ : Type) (env : Env Call Resp σ) (fuel : ℕ) (w : σ),
    ∀ call ∈ calls ((transmissionPhase cfg fuel).run env s w).trace, call.Through p e.handle
  /-- Requests are checked against its size. -/
  range : ∀ (σ : Type) (env : Env Call Resp σ) (fuel : ℕ) (w : σ) (c : ReqHead σ) (q : NbdRequest),
    AtRequest env cfg fuel (fun _ => True) s w c → requestAt env c = some q →
    RangeChecked e.exportsize q (roundAt env cfg fuel c).trace

/-- A plugin can be called for the context at all. -/
def Callable (ctx : ContextNbd) : Prop :=
  ∃ p, ctx.p = some p ∧ (ctx.minimumBlockSize ≠ 0 ∨ p.flush = true)

variable {σ : Type} {env : Env Call Resp σ} {cfg : Config} {fuel : ℕ} {s : Shared} {w : σ}
variable {c : ReqHead σ} {q : NbdRequest} {client : NbdClient}

/-! ### The reply -/

/-- A handshake that selects a context by its name finds it in the table, and answers with
the size and the flags of `ctx`. -/
theorem Negotiated.selected {r : ℤ} {client' : NbdClient} {s' : Shared} {h : List Ev}
    {uri : Bytes} {i : ContextIdx} (hn : Negotiated s client (.ret (r, client')) s' h)
    (hname : .note (.enter (.lwnbdGetContext uri)) ∈ calls h) (hi : client'.ctx = some i) :
    (∃ p, (s'.reg.get i).p = some p) ∧
      ∃ sock flags k, (⟨.send sock .handshakeFinish (exportReply s.ctx s.ctx.gflags) flags, k⟩ :
      Ev) ∈ h := by
  have hnot : ∀ {h : List Ev}, Haggled s client.sock h →
      .note (.enter (.lwnbdGetContext uri)) ∉ calls h := by
    intro h hh hmem
    have := hh.calls _ hmem
    simp [Haggles, Greets, ReadsOption, Answers] at this
  have hfound : ∀ {h t : List Ev} {o : Option Bytes} {j : ContextIdx} {s₁ : Shared} {k : Sent _},
      Haggled s client.sock h → LookedUp s o (.ret (some j)) s₁ t →
      .note (.enter (.lwnbdGetContext uri)) ∈
        calls (h ++ t ++ [⟨.send s.ctx.sock .handshakeFinish (exportReply s.ctx s.ctx.gflags) 0,
        k⟩]) →
      ∃ p, (s₁.reg.get j).p = some p := by
    intro h t o j s₁ k hh hl hmem
    rw [calls_append, calls_append] at hmem
    rcases List.mem_append.mp hmem with hmem | hmem
    · rcases List.mem_append.mp hmem with hmem | hmem
      · exact absurd hmem (hnot hh)
      · obtain ⟨p, size, hp, hreg⟩ := hl.found j uri rfl (hl.calls _ hmem)
        exact ⟨p, by rw [hreg, Registry.get_update]; exact hp⟩
    · simp at hmem
  cases hn with
  | refused hh => exact absurd hname (hnot hh)
  | aborted hh =>
    rw [calls_append] at hname
    rcases List.mem_append.mp hname with hname | hname
    · exact absurd hname (hnot hh)
    · simp at hname
  | unknown => cases hi
  | cut hh hl | exported hh hl =>
    cases hi
    obtain ⟨p, hp⟩ := hfound hh hl hname
    exact ⟨⟨p, hp⟩, _, _, _, List.mem_append_right _ (.head _)⟩

/-- The export reply is for the context that `ctx` describes. -/
theorem answeredWith_iff {e : Context} {p : Plugin} {h : List Ev} {cflags : UInt32}
    (hall : ∀ sock buf flags, ∀ k : Sent buf.length,
      (⟨.send sock .handshakeFinish buf flags, k⟩ : Ev) ∈ h → buf = exportReply s.ctx cflags)
    (hsent : ∃ sock flags k,
      (⟨.send sock .handshakeFinish (exportReply s.ctx cflags) flags, k⟩ : Ev) ∈ h) :
    AnsweredWith e p h ↔ s.ctx.exportsize = e.exportsize ∧
    announcedEflags s.ctx = nbdifyEflags p := by
  constructor
  · intro ha
    obtain ⟨sock, flags, k, hmem⟩ := hsent
    obtain ⟨hsize, hflags⟩ := ha _ _ _ _ hmem
    rw [exportReply_exportsize] at hsize
    rw [exportReply_eflags] at hflags
    refine ⟨?_, hflags⟩
    rw [← Int64.toInt64_toUInt64 s.ctx.exportsize, toBe64_inj hsize, Int64.toInt64_toUInt64]
  · rintro ⟨hsize, hflags⟩ sock buf flags k hmem
    obtain rfl := hall _ _ _ _ hmem
    rw [exportReply_exportsize, exportReply_eflags, hsize]
    exact ⟨rfl, hflags⟩

/-! ### The range check -/

theorem rangeChecked_other {E : Int64} {h : List Ev} (hr : q.type ≠ NBD_CMD_READ)
    (hw : q.type ≠ NBD_CMD_WRITE) : RangeChecked E q h :=
  ⟨fun ht => absurd ht hr, fun ht => absurd ht hw, fun ht => absurd ht hw⟩

theorem rangeChecked_read {E : Int64} {h : List Ev} (ht : q.type = NBD_CMD_READ)
    (hiff : simpleReply NBD_EIO q.handle ∈ answers h ↔ outOfRange E q = true) :
    RangeChecked E q h :=
  ⟨fun _ => hiff, fun ht' => absurd (ht.symm.trans ht') (by decide),
    fun ht' => absurd (ht.symm.trans ht') (by decide)⟩

/-- A WRITE is answered with the error that is left. -/
theorem rangeChecked_write {E : Int64} {h : List Ev} {e : UInt32} (ht : q.type = NBD_CMD_WRITE)
    (hh : answers h = [simpleReply e q.handle]) (hr : e = NBD_ENOSPC → outOfRange E q = true)
    (ha : e = NBD_SUCCESS → outOfRange E q = false) : RangeChecked E q h := by
  refine ⟨fun ht' => absurd (ht.symm.trans ht') (by decide), fun _ hmem => hr ?_,
    fun _ hmem => ha ?_⟩
  · rw [hh] at hmem
    exact (simpleReply_inj (List.mem_singleton.mp hmem)).1.symm
  · rw [hh] at hmem
    exact (simpleReply_inj (List.mem_singleton.mp hmem)).1.symm

theorem rangeChecked_unanswered {E : Int64} {h : List Ev} (ht : q.type = NBD_CMD_WRITE)
    (hh : answers h = []) : RangeChecked E q h :=
  ⟨fun ht' => absurd (ht.symm.trans ht') (by decide), fun _ hmem => by simp [hh] at hmem,
    fun _ hmem => by simp [hh] at hmem⟩

/-- The answer to a READ tells whether it was out of range, and nothing later changes that. -/
theorem checked_read_rules {s : Shared} (ht : q.type = NBD_CMD_READ) :
    ReadRules env s cfg s.ctx.minimumBlockSize (fun _ _ _ h => RangeChecked s.ctx.exportsize q h)
    (fun _ _ h => q.type = NBD_CMD_READ ∧
      (simpleReply NBD_EIO q.handle ∈ answers h ↔ outOfRange s.ctx.exportsize q = true)) where
  leave _ hJ _ := rangeChecked_read ht hJ.2
  null _ hJ _ _ := rangeChecked_read ht hJ.2
  sent _ hJ _ _ _ _ _ _ := ⟨ht, by rw [answers_append]; simpa [answers] using hJ.2⟩
  cut _ hJ _ _ _ _ _ _ _ :=
    rangeChecked_read ht (by rw [answers_append]; simpa [answers] using hJ.2)
  again _ hJ _ _ _ _ _ := ⟨ht, by rw [answers_append]; simpa [answers] using hJ.2⟩
  fail _ hJ _ _ _ _ _ := rangeChecked_read ht (by rw [answers_append]; simpa [answers] using hJ.2)

/-- A WRITE that is out of range is never answered with success. -/
theorem checked_write_rules {s : Shared} (ht : q.type = NBD_CMD_WRITE) :
    WriteRules env s cfg s.ctx.minimumBlockSize
      (Post.thenReply env q.handle fun _ _ _ h => RangeChecked s.ctx.exportsize q h)
      (fun _ e _ h => q.type = NBD_CMD_WRITE ∧ answers h = [] ∧
        (e = NBD_ENOSPC → outOfRange s.ctx.exportsize q = true) ∧
        (e = NBD_SUCCESS → outOfRange s.ctx.exportsize q = false)) where
  leave := by
    rintro x e w h - ⟨-, hh, hr, ha⟩ h0 k w₁ -
    exact rangeChecked_write ht (by rw [answers_append, hh]; rfl) hr ha
  null := by
    rintro x e w h r w₁ - ⟨-, hh, -⟩ - - - -
    exact rangeChecked_unanswered ht (by rw [answers_append, hh]; rfl)
  written := by
    rintro x e w h p r w₁ k w₂ - ⟨-, hh, hr, ha⟩ - - - - - z - -
    exact ⟨ht, by rw [answers_append, hh]; rfl, hr, ha⟩
  failed := by
    rintro x e w h p r w₁ k w₂ - ⟨-, hh, -⟩ - - - - - z - -
    exact ⟨ht, by rw [answers_append, hh]; rfl, fun h => absurd h (by decide),
                    fun h => absurd h (by decide)⟩
  cut := by
    rintro x e w h r w₁ - ⟨-, hh, -⟩ - - -
    exact ⟨ht, by rw [answers_append, hh]; rfl, fun h => absurd h (by decide),
                    fun h => absurd h (by decide)⟩

theorem writeError_range {ctx : ContextNbd} {e : UInt32} (he : e = writeError ctx q) :
    (e = NBD_ENOSPC → outOfRange ctx.exportsize q = true) ∧
      (e = NBD_SUCCESS → outOfRange ctx.exportsize q = false) := by
  subst he
  refine ⟨fun h => ?_, fun h => (writeError_eq_success.mp h).2⟩
  by_contra hr
  unfold writeError at h
  rw [if_neg hr] at h
  split_ifs at h <;> exact absurd h (by decide)

/-- A request is checked against the size of `ctx`. -/
theorem round_rangeChecked (hc : c.x.Ok cfg c.mem.ctx.minimumBlockSize)
    (hq : requestAt env c = some q) :
    RangeChecked c.mem.ctx.exportsize q (roundAt env cfg fuel c).trace := by
  have hE : ∀ {e : UInt32}, simpleReply NBD_EIO q.handle ∈ [simpleReply e q.handle] ↔
      e = NBD_EIO := by
    intro e
    rw [List.mem_singleton]
    exact ⟨fun h => (simpleReply_inj h).1.symm, fun h => by rw [h]⟩
  have H : RoundRules env cfg c.mem.ctx.minimumBlockSize c q
      (fun _ _ _ h => RangeChecked c.mem.ctx.exportsize q h) (fun _ _ h => q.type = NBD_CMD_READ ∧
        (simpleReply NBD_EIO q.handle ∈ answers h ↔ outOfRange c.mem.ctx.exportsize q = true))
      (fun _ e _ h => q.type = NBD_CMD_WRITE ∧ answers h = [] ∧
        (e = NBD_ENOSPC → outOfRange c.mem.ctx.exportsize q = true) ∧
        (e = NBD_SUCCESS → outOfRange c.mem.ctx.exportsize q = false)) :=
    { readLoop := checked_read_rules
      readRefused := fun ht hr _ _ _ => ⟨ht, iff_of_true (.head _) hr⟩
      readAccepted := fun ht hr _ _ _ _ => ⟨ht, (hE (e := NBD_SUCCESS)).trans
        (iff_of_false (by decide) (by simp [hr]))⟩
      readZero :=
        fun ht hr _ =>
        rangeChecked_read ht (iff_of_false (by simp [headerAt, answers]) (by simp [hr]))
      writeLoop := checked_write_rules
      writeRefused := fun ht _ => ⟨ht, rfl, writeError_range rfl⟩
      writeAccepted := fun ht hr _ => ⟨ht, rfl, writeError_range hr.symm⟩
      writeZero := fun ht _ _ => rangeChecked_unanswered ht rfl
      disc := fun ht => rangeChecked_other (by rw [ht]; decide) (by rw [ht]; decide)
      flush :=
        fun ht _ _ _ _ _ _ _ _ _ => rangeChecked_other (by rw [ht]; decide) (by rw [ht]; decide)
      flushNull := fun ht _ => rangeChecked_other (by rw [ht]; decide) (by rw [ht]; decide)
      other := fun hr hw _ _ _ _ _ => rangeChecked_other hr hw }
  exact H.round hq (fun _ _ _ _ hJ => rangeChecked_read hJ.1 hJ.2)
    (fun _ _ _ _ _ hJ => rangeChecked_unanswered hJ.1 hJ.2.1) hc

/-! ### A client that makes its plugin be called -/

/-- A client that sends one request. -/
def asker (type : UInt16) : Wire Unit :=
  ⟨(NbdRequest.mk NBD_REQUEST_MAGIC 0 type 0 0 0).toBytes, [], ()⟩

theorem requestAt_asker (type : UInt16) :
    requestAt (wire quiet) (firstHead (wire quiet) cfg s (asker type)) = some ⟨NBD_REQUEST_MAGIC, 0,
      type, 0, 0, 0⟩ := by
  have hc : (firstHead (wire quiet) cfg s (asker type)).x.Ok cfg s.ctx.minimumBlockSize :=
    firstHead_ok
  exact requestAt_wire quiet hc.request (List.append_nil _).symm rfl

variable (cfg) in
theorem pread_called {p : Plugin} (hp : s.ctx.p = some p) (hb : s.ctx.minimumBlockSize ≠ 0) :
    ∃ n o, .pread p s.ctx.handle n o ∈
      calls ((transmissionPhase cfg 2).run (wire quiet) s (asker NBD_CMD_READ)).trace := by
  let c := firstHead (wire quiet) cfg s (asker NBD_CMD_READ)
  let q : NbdRequest := ⟨NBD_REQUEST_MAGIC, 0, NBD_CMD_READ, 0, 0, 0⟩
  let x := (varsAt (wire quiet) c).accept cfg s.ctx.minimumBlockSize q
  have hq : requestAt (wire quiet) c = some q := requestAt_asker NBD_CMD_READ
  have hr : outOfRange s.ctx.exportsize q = false := by simp [outOfRange, q]
  refine ⟨(x.chunk s.ctx.minimumBlockSize).bufblksz, x.offset, ?_⟩
  suffices wp (wire quiet) (transmissionPhase cfg 2) (fun _ _ _ h =>
      .pread p s.ctx.handle (x.chunk s.ctx.minimumBlockSize).bufblksz x.offset ∈ calls h) s
        (asker NBD_CMD_READ)
    from this
  refine wp_transmissionPhase
    (wp_loop_first _ (wp_round_read hq rfl (wp_cmdRead_accepted hr hb fun k w₁ _ =>
    wp_loop_first _ (wp_readChunk hp (by rw [accept_sendflag]; decide) (fun r w₂ _ _ => ?_)
      fun r w₂ _ _ => ?_))))
  · refine wp_of_forall _ fun _ _ _ _ _ _ _ _ _ _ _ _ => ?_
    simp [c, x, firstHead]
  · intro _ _ _ _ _ _ _ _
    simp [c, x, firstHead]

theorem flush_called {p : Plugin} (hp : s.ctx.p = some p) (hf : p.flush = true) :
    .flush p s.ctx.handle ∈
    calls ((transmissionPhase cfg 2).run (wire quiet) s (asker NBD_CMD_FLUSH)).trace := by
  suffices wp (wire quiet) (transmissionPhase cfg 2)
      (fun _ _ _ h => .flush p s.ctx.handle ∈ calls h) s
    (asker NBD_CMD_FLUSH) from this
  refine wp_transmissionPhase (wp_loop_first _ (wp_round_flush (requestAt_asker NBD_CMD_FLUSH) rfl
    (wp_cmdFlush hp hf fun r w₁ k w₂ _ _ => ?_)))
  intro _ _ _ _
  simp [firstHead]

/-! ### The transmission phase -/

/-- A context is served by a transmission phase that is entered with its size in `ctx`, if and
only if `ctx` has its plugin and its handle, or no plugin that can be called. -/
theorem servedFrom_iff {e : Context} {p : Plugin} (hsize : s.ctx.exportsize = e.exportsize) :
    ServedFrom cfg s e p ↔ (Callable s.ctx → s.ctx.p = some p ∧ s.ctx.handle = e.handle) := by
  constructor
  · rintro hs ⟨p', hp', hb | hf⟩
    · obtain ⟨n, o, hmem⟩ := pread_called cfg hp' hb
      obtain ⟨rfl, hhandle⟩ := hs.through _ _ _ _ _ hmem
      exact ⟨hp', hhandle⟩
    · obtain ⟨rfl, hhandle⟩ := hs.through _ _ _ _ _ (flush_called hp' hf)
      exact ⟨hp', hhandle⟩
  · intro hcall
    refine ⟨fun σ env fuel w call hmem => ?_, fun σ env fuel w c q hc hq => ?_⟩
    · have htr : Transmits s.ctx call := transmissionPhase_transmits call hmem
      cases call with
      | pread p' handle n o | pwrite p' handle buf n o =>
        obtain ⟨hp', rfl, hb⟩ := htr
        obtain ⟨hp, hhandle⟩ := hcall ⟨p', hp', .inl hb⟩
        exact ⟨Option.some_inj.mp (hp'.symm.trans hp), hhandle⟩
      | flush p' handle =>
        obtain ⟨hp', rfl, hf⟩ := htr
        obtain ⟨hp, hhandle⟩ := hcall ⟨p', hp', .inr hf⟩
        exact ⟨Option.some_inj.mp (hp'.symm.trans hp), hhandle⟩
      | _ => trivial
    · obtain ⟨rfl, hok⟩ := hc.frame
      rw [← hsize]
      exact round_rangeChecked hok hq

/-! ### A session -/

/-- **What a client is served** whose handshake has selected a context by its name: it is answered
with the size and the flags of that context if and only if `ctx` has them; and the context is the
one that is served if and only if `ctx` has its plugin and its handle besides, or no plugin that
can be called. -/
theorem served_is_selected (env : Env Call Resp σ) (cfg : Config) (fuel : ℕ) (s : Shared) (w : σ)
    (client client' : NbdClient) (r : ℤ) (uri : Bytes) (i : ContextIdx)
    (hret : ((protocolHandshake cfg fuel client).run env s w).out = .ret (r, client'))
    (hname : .note (.enter (.lwnbdGetContext uri)) ∈
      calls ((protocolHandshake cfg fuel client).run env s w).trace)
    (hi : client'.ctx = some i) :
    let z := (protocolHandshake cfg fuel client).run env s w
    let e := z.mem.reg.get i
    ∃ p, e.p = some p ∧
      (AnsweredWith e p z.trace ↔ s.ctx.exportsize = e.exportsize ∧
      announcedEflags s.ctx = nbdifyEflags p) ∧
      (AnsweredWith e p z.trace ∧ ServedFrom cfg z.mem e p ↔
        s.ctx.exportsize = e.exportsize ∧ announcedEflags s.ctx = nbdifyEflags p ∧
          (Callable s.ctx → s.ctx.p = some p ∧ s.ctx.handle = e.handle)) := by
  intro z e
  have hn : Negotiated s client z.out z.mem z.trace := handshake_negotiated
  have hctx := hn.frame
  have hall : ∀ sock buf flags, ∀ k : Sent buf.length,
      (⟨.send sock .handshakeFinish buf flags, k⟩ : Ev) ∈ z.trace →
      buf = exportReply s.ctx s.ctx.gflags := fun _ _ _ _ hmem => (hn.finish hmem).1
  rw [show z.out = .ret (r, client') from hret] at hn
  obtain ⟨⟨p, hp⟩, hsent⟩ := hn.selected hname hi
  have hanswered : AnsweredWith e p z.trace ↔ _ := answeredWith_iff hall hsent
  refine ⟨p, hp, hanswered, ?_⟩
  -- `ctx` is as it was, but for its phase
  have hserved : s.ctx.exportsize = e.exportsize →
      (ServedFrom cfg z.mem e p ↔
      (Callable s.ctx → s.ctx.p = some p ∧ s.ctx.handle = e.handle)) := by
    intro hsize
    refine (servedFrom_iff (by rw [hctx]; exact hsize)).trans ?_
    rw [hctx]
    rfl
  constructor
  · rintro ⟨ha, hs⟩
    obtain ⟨hsize, hflags⟩ := hanswered.mp ha
    exact ⟨hsize, hflags, (hserved hsize).mp hs⟩
  · rintro ⟨hsize, hflags, hcall⟩
    exact ⟨hanswered.mpr ⟨hsize, hflags⟩, (hserved hsize).mpr hcall⟩

namespace Sample

/-- A context table with one context, `a`, of the handle `handle`. -/
def table (handle : Handle) : Registry where
  contexts := Registry.empty.contexts.set slot.1 ⟨handle, some plugin, [97], [], 8⟩ slot.2
  status := Registry.empty.status.set slot.1 .created slot.2

/-- A server whose record describes the context `a`. -/
def described : Shared :=
  ⟨{ Sample.ctx with exportsize := 0, eflags := nbdifyEflags plugin }, table Sample.ctx.handle⟩

/-- A server whose record describes another context. -/
def undescribed : Shared := ⟨{ Sample.ctx with eflags := nbdifyEflags plugin }, table 9⟩

/-- A client that asks for the export `a`. -/
def finder : Wire Unit := Sample.client (toBe32 3 ++ option NBD_OPT_EXPORT_NAME 1 ++ [97])

/-- A client in the handshake, without a context. -/
def stranger : NbdClient := ⟨5, .handshake, none⟩

/-- What the handshake with it leaves. -/
def findingOn (s : Shared) : Result Shared Call Resp (Wire Unit) (ℤ × NbdClient) :=
  (protocolHandshake Sample.cfg 2 stranger).run (wire quiet) s finder

theorem findingOn_described :
    (findingOn described).out = .ret (0, { stranger with ctx := some slot }) := by
  decide +kernel

theorem findingOn_undescribed :
    (findingOn undescribed).out = .ret (0, { stranger with ctx := some slot }) := by
  decide +kernel

/-- An export that `ctx` describes is served. -/
theorem served_is_selected_described :
    AnsweredWith ((findingOn described).mem.reg.get slot) plugin (findingOn described).trace ∧
      ServedFrom Sample.cfg (findingOn described).mem ((findingOn described).mem.reg.get slot)
      plugin := by
  obtain ⟨p, hp, -, hiff⟩ :=
    served_is_selected (wire quiet) Sample.cfg 2 described finder stranger _ 0 [97] slot
    findingOn_described (by decide +kernel) rfl
  have hplugin : ((findingOn described).mem.reg.get slot).p = some plugin := by decide +kernel
  obtain rfl : p = plugin := Option.some_inj.mp (hp.symm.trans hplugin)
  exact hiff.mpr ⟨by decide +kernel, by decide +kernel, fun _ => by decide +kernel⟩

/-- **A client that selects one export is answered with the size of another.** -/
theorem served_is_not_selected :
    ¬ ∀ (σ : Type) (env : Env Call Resp σ) (cfg : Config) (fuel : ℕ) (s : Shared) (w : σ)
      (client client' : NbdClient) (r : ℤ) (uri : Bytes) (i : ContextIdx) (p : Plugin),
      ((protocolHandshake cfg fuel client).run env s w).out = .ret (r, client') →
      .note (.enter (.lwnbdGetContext uri)) ∈
      calls ((protocolHandshake cfg fuel client).run env s w).trace →
      client'.ctx = some i →
      let z := (protocolHandshake cfg fuel client).run env s w
      (z.mem.reg.get i).p = some p →
      AnsweredWith (z.mem.reg.get i) p z.trace ∧
      (r = 0 → ServedFrom cfg z.mem (z.mem.reg.get i) p) := by
  intro h
  obtain ⟨ha, -⟩ := h _ (wire quiet) Sample.cfg 2 undescribed finder stranger _ 0 [97] slot plugin
    findingOn_undescribed (by decide +kernel) rfl (by decide +kernel)
  have hmem :
      (⟨.send 5 .handshakeFinish [0, 0, 0, 0, 0, 0, 0, 8, 0, 5] 0, ⟨10, by decide, by decide⟩⟩ :
      Ev) ∈ (findingOn undescribed).trace := by decide +kernel
  exact absurd (ha _ _ _ _ hmem).1 (by decide +kernel)

end Sample

end LwNBD
