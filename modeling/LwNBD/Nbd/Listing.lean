import LwNBD.Nbd.Exports
import LwNBD.Nbd.Options

/-!
# The list of exports

The answer to `NBD_OPT_LIST`: for each context a header, the length of its name, its name and its
description, in four sends; then an acknowledgement. A client reads it back by the lengths in it.

## The model

* `listEntry`, `listReply` — the bytes of the answer.
* `decodeList` — how a client reads it.
* `Registry.createdPairs` — what it is to read.
* `Sends` — over the lossless transport, a program sends these bytes and does nothing else.

## What is proved

* `sendList_sends`, `optList_sends` — the answer is sent.
* `decodeList_listReply` — it is read back.
* `Registry.Gapless.announced_eq` — the contexts that are counted are the created ones.
* `list_round_trip` — so a client is told the names and descriptions of the created contexts, in the
  order of the table, and nothing else.
-/

namespace LwNBD

open Resumption

/-! ### The answer -/

/-- The bytes of one context. -/
def listEntry (context : Context) : Bytes :=
  fixedNewOptionReply NBD_OPT_LIST NBD_REP_SERVER
      (.ofNat (context.name.length + 4 + context.description.length)) ++
    (toBe32 (.ofNat context.name.length) ++ (context.name ++ context.description))

/-- The bytes of the answer. -/
def listReply (reg : Registry) : Bytes :=
  (reg.contexts.toList.take reg.contextsCount).flatMap listEntry ++
    fixedNewOptionReply NBD_OPT_LIST NBD_REP_ACK 0

/-! ### Sending it -/

section Send

variable {s : Shared} {p q : Server Bool} {b b' : Bytes} {context : Context} {reg : Registry}

/-- These bytes are sent, all of them, over the lossless transport, and nothing else is done. -/
def Sends (s : Shared) (p : Server Bool) (b : Bytes) : Prop :=
  ∀ (β : Type) (host : Env Call Resp β) (w : Wire β), wp (wire host) p
    (fun o s' w' _ => o = .ret true ∧ s' = s ∧ w' = { w with output := w.output ++ b }) s w

theorem Sends.and (hp : Sends s p b) (hq : Sends s q b') :
    Sends s (do if ← p then q else pure false) (b ++ b') := by
  intro β host w
  rw [wp_bind]
  refine wp_mono _ ?_ (hp β host w)
  rintro o s' w' h ⟨rfl, rfl, rfl⟩
  rw [Post.seq_ret, if_pos rfl]
  refine wp_mono _ ?_ (hq β host _)
  rintro o s' w' h' ⟨rfl, rfl, rfl⟩
  exact ⟨rfl, rfl, by rw [List.append_assoc]⟩

theorem sendOptionReply_sends (option reply replylen : UInt32) (flags : ℤ) :
    Sends s (sendOptionReply option reply replylen flags)
    (fixedNewOptionReply option reply replylen) := by
  intro β host w
  refine wp_sendOptionReply fun k w₁ hk => ?_
  obtain ⟨hret, rfl⟩ := wire_send_eq hk
  have hlen : (fixedNewOptionReply option reply replylen).length = 20 := by
    simp [fixedNewOptionReply]
  refine ⟨?_, rfl, rfl⟩
  rw [hret, hlen]
  rfl

theorem sendPiece_sends {obj : Obj} (hb : b.length < 2 ^ 64) : Sends s (sendPiece obj b) b := by
  intro β host w
  refine wp_sendPiece fun k w₁ hk => ?_
  obtain ⟨hret, rfl⟩ := wire_send_eq hk
  have hsize : asSize k.1 = b.length := by
    rw [hret, asSize_of_nonneg (Int.natCast_nonneg _) (by exact_mod_cast hb), Int.toNat_natCast]
  exact ⟨by rw [hsize, decide_eq_true (Nat.le_refl _)], rfl, rfl⟩

theorem sendListEntry_sends (h : context.Fits) :
    Sends s (sendListEntry NBD_OPT_LIST context) (listEntry context) := by
  obtain ⟨⟨-, hname⟩, -, hdesc⟩ := h
  refine (sendOptionReply_sends _ _ _ _).and
    ((sendPiece_sends ?_).and ((sendPiece_sends ?_).and (sendPiece_sends ?_)))
  · rw [length_toBe32]
    decide
  · exact Nat.lt_trans hname (by decide)
  · exact Nat.lt_trans hdesc (by decide)

/-- The entries of the list. -/
theorem sendList_sends (h : ∀ i, (s.reg.get i).Fits) :
    Sends s (sendList NBD_OPT_LIST)
    ((s.reg.contexts.toList.take s.reg.contextsCount).flatMap listEntry) := by
  intro β host w
  refine wp_loop_total (wire host) (Q := fun o s' w' _ => o = .ret true ∧ s' = s ∧
      w' = { w with output :=
      w.output ++ (s.reg.contexts.toList.take s.reg.contextsCount).flatMap listEntry })
    (fun i s' w' _ => s' = s ∧ i ≤ s.reg.contextsCount ∧
      w' = { w with output := w.output ++ (s.reg.contexts.toList.take i).flatMap listEntry })
    (fun i _ _ => MAX_CONTEXTS - i) ?_ _ 0 s w [] (by decide) ⟨rfl, Nat.zero_le _, by simp⟩
  rintro i s' w' t ⟨rfl, hi, rfl⟩
  rw [wp_bind, wp_read, Post.seq_ret, Post.after_nil]
  dsimp only
  by_cases hlt : i < s'.reg.contextsCount ∧ i < MAX_CONTEXTS
  · rw [dif_pos hlt, wp_bind]
    refine wp_mono _ ?_ (sendListEntry_sends (h ⟨i, hlt.2⟩) β host _)
    rintro o s'' w'' t' ⟨rfl, rfl, rfl⟩
    rw [Post.seq_ret, if_pos rfl, wp_pure]
    refine ⟨⟨rfl, hlt.1, ?_⟩, Nat.sub_lt_sub_left hlt.2 (Nat.lt_succ_self i)⟩
    have hlen : i < s''.reg.contexts.toList.length := by
      rw [Vector.length_toList]
      exact hlt.2
    rw [List.take_succ_eq_append_getElem hlen, List.flatMap_append,
      List.flatMap_singleton, ← List.append_assoc]
    rfl
  · have hcount : i = s'.reg.contextsCount := by
      have hmax : s'.reg.contextsCount ≤ MAX_CONTEXTS := Pool.next_le
      omega
    rw [dif_neg hlt, wp_pure]
    exact ⟨rfl, rfl, by rw [hcount]⟩

/-- The answer is sent, and the option loop goes round again. -/
theorem optList_sends {x : OptVars} {β : Type} (host : Env Call Resp β) (w : Wire β)
    (h : ∀ i, (s.reg.get i).Fits) :
    wp (wire host) (optList x NBD_OPT_LIST) (fun o s' w' _ => o = .ret (.next x) ∧ s' = s ∧
      w' = { w with output := w.output ++ listReply s.reg }) s w := by
  rw [optList, wp_bind]
  refine wp_mono _ ?_ (sendList_sends h β host w)
  rintro o s' w' t ⟨rfl, rfl, rfl⟩
  rw [Post.seq_ret, if_pos rfl, wp_bind]
  refine wp_mono _ ?_ (sendOptionReply_sends NBD_OPT_LIST NBD_REP_ACK 0 0 β host _)
  rintro o s' w' t' ⟨rfl, rfl, rfl⟩
  rw [Post.seq_ret, if_pos rfl, wp_pure]
  exact ⟨rfl, rfl, by rw [listReply, List.append_assoc]⟩

end Send

/-! ### Reading it -/

/-- Take `n` bytes off, if there are so many. -/
def takeOff (n : ℕ) (b : Bytes) : Option (Bytes × Bytes) :=
  if n ≤ b.length then some (b.take n, b.drop n) else none

/-- The header of an option reply: the option, the reply and its length, and what follows. -/
def decodeReply (b : Bytes) : Option ((UInt32 × UInt32 × UInt32) × Bytes) := do
  let (header, b) ← takeOff 20 b
  if be64 (header.slice 0 8) = NBD_REP_MAGIC then
    some ((be32 (header.slice 8 4), be32 (header.slice 12 4), be32 (header.slice 16 4)), b)
  else none

/-- The data of `NBD_REP_SERVER`: the length of the name, the name, and the description. -/
def decodeEntry (data : Bytes) : Option (Bytes × Bytes) := do
  let (len, b) ← takeOff 4 data
  takeOff (be32 len).toNat b

/-- How a client reads the list, of at most `n` replies: until an acknowledgement, every reply is
an entry. What is left over is returned too. -/
def decodeList : ℕ → Bytes → Option (List (Bytes × Bytes) × Bytes)
  | 0, _ => none
  | n + 1, b => do
    let ((option, reply, replylen), b) ← decodeReply b
    if option ≠ NBD_OPT_LIST then none
    else if reply = NBD_REP_ACK ∧ replylen = 0 then some ([], b)
    else if reply = NBD_REP_SERVER then do
      let (data, b) ← takeOff replylen.toNat b
      let entry ← decodeEntry data
      let (entries, b) ← decodeList n b
      some (entry :: entries, b)
    else none

section Read

variable {a b : Bytes} {n : ℕ} {context : Context}

theorem takeOff_append (h : a.length = n) : takeOff n (a ++ b) = some (a, b) := by
  rw [takeOff, if_pos (by simp [← h]), List.take_left' h, List.drop_left' h]

theorem decodeReply_append (option reply replylen : UInt32) :
    decodeReply (fixedNewOptionReply option reply replylen ++ b) =
    some ((option, reply, replylen), b) := by
  have hlen : (fixedNewOptionReply option reply replylen).length = 20 := by
    simp [fixedNewOptionReply]
  have h0 : (fixedNewOptionReply option reply replylen).slice 0 8 = toBe64 NBD_REP_MAGIC := by
    simp [fixedNewOptionReply, -List.append_assoc, List.slice_append_left, List.slice_eq_self]
  have h8 : (fixedNewOptionReply option reply replylen).slice 8 4 = toBe32 option := by
    simp [fixedNewOptionReply, -List.append_assoc, List.slice_append_left,
      List.slice_append_right, List.slice_eq_self]
  have h12 : (fixedNewOptionReply option reply replylen).slice 12 4 = toBe32 reply := by
    simp [fixedNewOptionReply, -List.append_assoc, List.slice_append_left,
      List.slice_append_right, List.slice_eq_self]
  have h16 : (fixedNewOptionReply option reply replylen).slice 16 4 = toBe32 replylen := by
    simp [fixedNewOptionReply, -List.append_assoc, List.slice_append_right, List.slice_eq_self]
  simp only [decodeReply, takeOff_append hlen, Option.bind_eq_bind, Option.bind_some, h0, h8,
    h12, h16, be32_toBe32, be64_toBe64, if_pos]

theorem decodeEntry_eq (h : context.Fits) :
    decodeEntry (toBe32 (.ofNat context.name.length) ++ (context.name ++ context.description)) =
      some (context.name, context.description) := by
  have hname : context.name.length = (UInt32.ofNat context.name.length).toNat := by
    rw [UInt32.toNat_ofNat', Nat.mod_eq_of_lt (Nat.lt_trans h.1.2 (by decide))]
  simp only [decodeEntry, takeOff_append (length_toBe32 _), Option.bind_eq_bind,
    Option.bind_some, be32_toBe32]
  exact takeOff_append hname

theorem decodeList_entry (h : context.Fits) :
    decodeList (n + 1) (listEntry context ++ b) =
      (decodeList n b).map fun x => ((context.name, context.description) :: x.1, x.2) := by
  have hlt : context.name.length + 4 + context.description.length < 2 ^ 32 := by
    have h31 := h.1.2
    have h63 := h.2.2
    omega
  have hlen :
      (toBe32 (.ofNat context.name.length) ++ (context.name ++ context.description)).length =
      (UInt32.ofNat (context.name.length + 4 + context.description.length)).toNat := by
    rw [UInt32.toNat_ofNat', Nat.mod_eq_of_lt hlt, List.length_append,
      List.length_append, length_toBe32]
    omega
  rw [listEntry, List.append_assoc, decodeList]
  simp only [decodeReply_append, Option.bind_eq_bind, Option.bind_some]
  rw [if_neg (not_not.mpr rfl), if_neg fun hack => absurd hack.1 (by decide), if_pos trivial]
  simp only [takeOff_append hlen, decodeEntry_eq h, Option.bind_some]
  cases decodeList n b <;> rfl

theorem decodeList_ack :
    decodeList (n + 1) (fixedNewOptionReply NBD_OPT_LIST NBD_REP_ACK 0 ++ b) = some ([], b) := by
  rw [decodeList]
  simp only [decodeReply_append, Option.bind_eq_bind, Option.bind_some]
  rw [if_neg (not_not.mpr rfl), if_pos ⟨trivial, trivial⟩]

/-- The entries are read, and the acknowledgement. -/
theorem decodeList_entries {cs : List Context} (h : ∀ c ∈ cs, c.Fits) (hn : cs.length < n) :
    decodeList n (cs.flatMap listEntry ++ (fixedNewOptionReply NBD_OPT_LIST NBD_REP_ACK 0 ++ b)) =
      some (cs.map fun c => (c.name, c.description), b) := by
  induction cs generalizing n with
  | nil =>
    obtain ⟨m, rfl⟩ := Nat.exists_eq_add_of_lt hn
    rw [List.flatMap_nil, List.nil_append, decodeList_ack]
    rfl
  | cons c cs ih =>
    obtain ⟨m, rfl⟩ : ∃ m, n = m + 1 := Nat.exists_eq_add_one.mpr (Nat.zero_lt_of_lt hn)
    rw [List.flatMap_cons, List.append_assoc, decodeList_entry (h c List.mem_cons_self),
      ih (fun c hc => h c (.tail _ hc)) (Nat.lt_of_succ_lt_succ hn)]
    rfl

theorem length_entries (cs : List Context) : cs.length ≤ (cs.flatMap listEntry).length := by
  induction cs with
  | nil => exact Nat.le_refl _
  | cons c cs ih =>
    have hpos : 1 ≤ (listEntry c).length := by simp [listEntry, fixedNewOptionReply]; omega
    rw [List.flatMap_cons, List.length_cons, List.length_append]
    omega

/-- The answer is read back, with nothing left over. -/
theorem decodeList_listReply {reg : Registry} (h : ∀ i, (reg.get i).Fits) :
    decodeList (listReply reg).length (listReply reg) = some (reg.announced, []) := by
  have hfits : ∀ c ∈ reg.contexts.toList.take reg.contextsCount, c.Fits := by
    intro c hc
    obtain ⟨i, hi, rfl⟩ := List.mem_iff_getElem.mp (List.mem_of_mem_take hc)
    exact h ⟨i, by simpa using hi⟩
  have hack : (fixedNewOptionReply NBD_OPT_LIST NBD_REP_ACK 0).length = 20 := by
    simp [fixedNewOptionReply]
  have hlen : (reg.contexts.toList.take reg.contextsCount).length < (listReply reg).length := by
    have hle := length_entries (reg.contexts.toList.take reg.contextsCount)
    rw [listReply, List.length_append, hack]
    omega
  have hread := decodeList_entries hfits hlen (b := [])
  rw [List.append_nil] at hread
  exact hread

end Read

/-! ### The created contexts -/

/-- The names and descriptions of the created contexts, in the order of the table. -/
def Registry.createdPairs (reg : Registry) : List (Bytes × Bytes) :=
  ((List.finRange MAX_CONTEXTS).filter fun i => reg.Created i).map fun i =>
    ((reg.get i).name, (reg.get i).description)

/-- The contexts that are counted are the created ones, where there are no holes. -/
theorem Registry.Gapless.announced_eq {reg : Registry} (h : reg.Gapless) :
    reg.announced = reg.createdPairs := by
  have hlist : reg.contexts.toList = (List.finRange MAX_CONTEXTS).map reg.get := by
    refine List.ext_getElem (by simp) fun i _ _ => ?_
    simp [Registry.get]
  have hfilter : ((List.finRange MAX_CONTEXTS).filter fun i => reg.Created i) =
      (List.finRange MAX_CONTEXTS).take reg.contextsCount := by
    have hsplit : List.finRange MAX_CONTEXTS = _ := (List.take_append_drop reg.contextsCount _).symm
    have htake : ((List.finRange MAX_CONTEXTS).take reg.contextsCount).filter
        (fun i => reg.Created i) = (List.finRange MAX_CONTEXTS).take reg.contextsCount := by
      refine List.filter_eq_self.mpr fun i hi => decide_eq_true ((h i).mpr ?_)
      obtain ⟨j, hj, rfl⟩ := List.mem_take_iff_getElem.mp hi
      rw [List.getElem_finRange]
      exact Nat.lt_of_lt_of_le hj (Nat.min_le_left _ _)
    have hdrop : ((List.finRange MAX_CONTEXTS).drop reg.contextsCount).filter
        (fun i => reg.Created i) = [] := by
      refine List.filter_eq_nil_iff.mpr fun i hi hc => ?_
      obtain ⟨j, hj, rfl⟩ := List.mem_drop_iff_getElem.mp hi
      have hlt := (h _).mp (of_decide_eq_true hc)
      rw [List.getElem_finRange] at hlt
      exact Nat.not_le_of_lt hlt (Nat.le_add_right _ _)
    rw [hsplit, List.filter_append, htake, hdrop, List.append_nil, ← hsplit]
  rw [announced, createdPairs, hfilter, hlist, ← List.map_take, List.map_map]
  rfl

/-! ### The option loop -/

section Loop

variable {β : Type} {host : Env Call Resp β} {cfg : Config} {cflags : UInt32} {c : OptHead (Wire β)}

theorem readOptionAt_output : (readOptionAt (wire host) cfg c).env.output = c.env.output := by
  obtain ⟨-, hreads, -⟩ : wp (wire host) (readOption cfg c.x) _ c.mem c.env := readOption_reads
  have hsent : sentBytes (readOptionAt (wire host) cfg c).trace = [] := by
    refine sentBytes_eq_nil fun e he => ?_
    have hread := hreads e he
    cases e <;> first | rfl | exact hread.elim
  rw [readOptionAt, wire_output, ← readOptionAt, hsent, List.append_nil]

end Loop

/-- **The list is told to a client as it is**: whatever a library has come to be, a client that asks
for the list over the lossless transport is sent bytes that it reads as the names and descriptions
of the created contexts, in the order of the table, with no byte left over; the server's memory is
as it was, and another option is read. -/
theorem list_round_trip {lib : Library} {hs : List ContextIdx}
    (hlib : Reachable (fun _ _ => True) lib hs) {β : Type} (host : Env Call Resp β) (cfg : Config)
    (cflags : UInt32) (c : OptHead (Wire β)) {y : OptVars} {t : NbdNewOption}
    (hreg : c.mem.reg = lib.reg) (hread : optionAt (wire host) cfg c = some (y, t))
    (hlist : t.option = NBD_OPT_LIST) :
    let r := c.round (wire host) (serveOption cfg cflags)
    r.out = .ret (.next y) ∧ r.mem = c.mem ∧ ∃ b, r.env.output = c.env.output ++ b ∧
      decodeList b.length b = some (lib.reg.createdPairs, []) := by
  have hk := hlib.kept
  rw [← hreg] at hk ⊢
  intro r
  suffices wp (wire host) (serveOption cfg cflags c.x) (fun o s' w' _ => o = .ret (.next y) ∧
      s' = c.mem ∧ w'.output = c.env.output ++ listReply c.mem.reg) c.mem c.env by
    obtain ⟨hout, hmem, hsent⟩ := this
    refine ⟨hout, hmem, listReply c.mem.reg, hsent, ?_⟩
    rw [decodeList_listReply hk.fits, hk.created_iff.announced_eq]
  refine wp_serveOption (by simp [hread]) fun y' t' hy' _ _ => ?_
  cases hread.symm.trans hy'
  rw [hlist]
  change wp (wire host) (optList y NBD_OPT_LIST) _ _ _
  refine wp_mono _ ?_ (optList_sends host _ hk.fits)
  rintro o s' w' h ⟨rfl, rfl, rfl⟩
  exact ⟨rfl, rfl, by rw [readOptionAt_output]⟩

namespace Sample

/-- A plugin without a long name. -/
def untitled : LwnbdPlugin := ⟨Sample.plugin, true, true, [], by decide, 0⟩

/-- The library when that is registered too. -/
def twoPlugins : Library :=
  { exporting with plugins := exporting.plugins.set 1 (some untitled), status :=
    exporting.status.set 1 .created }

/-- The slot of the second context. -/
def second : ContextIdx := ⟨1, by decide⟩

/-- The library when it has another export, named `b`. -/
def twoExports : Library :=
  { twoPlugins with reg := (exporting.reg.mark second).update second fun _ =>
    ⟨0, some Sample.plugin, [98], [], 0⟩ }

theorem twoExports_reachable : ∃ hs, Reachable (fun _ _ => True) twoExports hs := by
  have hinit : (Change.pluginInit (some untitled)).Leads exporting
      twoPlugins := ⟨1, by decide +kernel⟩
  have hnew : (Change.pluginNew 1 (named 0 [98] (by decide))).Leads twoPlugins twoExports :=
    ⟨0, by decide +kernel⟩
  exact ⟨_, .step (.step exporting_reachable trivial hinit) trivial hnew⟩

/-- A client that asks for the list. -/
def lister : OptHead (Wire Unit) :=
  ⟨⟨⟨5, .handshake, none⟩, List.replicate 16 0, [0, 0]⟩, ⟨Sample.ctx, twoExports.reg⟩,
    Sample.client (Sample.option NBD_OPT_LIST 0)⟩

/-- `list_round_trip`, with two exports, of which one has no description. -/
theorem list_round_trip_exporting :
    (lister.round (wire quiet) (serveOption Sample.cfg 3)).mem = lister.mem ∧
    ∃ b, (lister.round (wire quiet) (serveOption Sample.cfg 3)).env.output = b ∧
      decodeList b.length b = some ([([97], [109]), ([98], [])], []) := by
  obtain ⟨hs, hlib⟩ := twoExports_reachable
  have hread : optionAt (wire quiet) Sample.cfg lister = some (⟨⟨5, .handshake, none⟩,
      NbdNewOption.hostOrder (Sample.option NBD_OPT_LIST 0), [0, 0]⟩,
      ⟨NBD_NEW_VERSION, NBD_OPT_LIST, 0⟩) := by
    decide +kernel
  have hpairs : twoExports.reg.createdPairs = [([97], [109]), ([98], [])] := by decide +kernel
  obtain ⟨-, hmem, b, hout, hdecode⟩ := list_round_trip hlib quiet Sample.cfg 3 lister rfl hread rfl
  rw [hpairs] at hdecode
  exact ⟨hmem, b, hout, hdecode⟩

end Sample

end LwNBD
