import Mathlib.Data.List.DropRight
import LwNBD.Core.Table

/-!
# Instances

`memory_ctor`, `file_ctor` and `pcmstream_ctor`, which are the `ctor` callbacks of three plugins,
`nbd_new` of `servers/nbd/nbd.c`, and `lwnbd_server_init` and `lwnbd_server_stop` of
`src/servers.c`. Each of them looks for the first free slot of a static array with the same loop,
which ends at the length of the array if no slot is free. Only `lwnbd_server_init` compares the
index with it.

## The model

* `search` — the loop.
* `Slots`, `poolCtor`, and the constructors — a plugin's handles, and what is done with the slot
  that is found.
* `Servers`, `nbdNew`, `lwnbdServerInit`, `lwnbdServerStop` — the servers. What `init` returns is a
  parameter, for `nbd_server_init` is not in the repository; the record of the nbd server has a
  `new` and no `stop`.
* `ExactFrom`, `ExactServers` — what is expected of a sequence of calls.

## What is proved

* `exactFrom_iff` — constructors do as expected exactly as long as there are slots.
* `exactServers_iff` — the servers do as expected exactly if none is stopped.
* `slot_pools_iff` — both.
-/

namespace LwNBD

open Resumption

/-! ### The search for a slot -/

/-- `handle_state_t`. -/
inductive HandleState where
  /-- `HANDLE_FREE`. -/
  | free
  /-- `HANDLE_CREATED`. -/
  | created
  deriving DecidableEq, Repr

/-- The handle is free. -/
def HandleState.isFree (st : HandleState) : Bool := st = .free

/-- The loop that looks for a free handle, and takes it: where it ends, and what it leaves. -/
def search {n : ℕ} (inUse : Vector HandleState n) : ℕ × Vector HandleState n :=
  match Pool.take HandleState.isFree .created inUse with
  | none => (n, inUse)
  | some (i, inUse) => (i, inUse)

/-! ### Constructors of plugins -/

/-- `MEM_DRIVER_MAX_DEVICES`. -/
def MEM_DRIVER_MAX_DEVICES : ℕ := 10

/-- `FILE_DRIVER_MAX_DEVICES`. -/
def FILE_DRIVER_MAX_DEVICES : ℕ := 10

/-- `PCM_DRIVER_MAX_DEVICES`. -/
def PCM_DRIVER_MAX_DEVICES : ℕ := 1

/-- `handles` and `handle_in_use` of a plugin. -/
structure Slots (n : ℕ) (H : Type) where
  /-- `handles`. -/
  handles : Vector H n
  /-- `handle_in_use`. -/
  inUse : Vector HandleState n

/-- What the constructors do: take a slot, write the handle, and name the context. An index that is
not of the array, and a string that is too long, are `.undefined`. -/
def poolCtor {n : ℕ} {H : Type} (write : H → H) (name : Bytes) (description : Option Bytes)
    (ret : ℤ) (s : Slots n H) (c : Context) : Outcome (ℤ × Slots n H × Context) :=
  let found := search s.inUse
  if h : found.1 < n then
    if name.length < 32 ∧ ∀ d ∈ description, d.length < 64 then
      .ret (ret, ⟨s.handles.set found.1 (write s.handles[found.1]), found.2⟩,
        { c with handle := found.1, name := name, description := description.getD c.description })
    else .halt .undefined
  else .halt .undefined

/-- `struct memory_config`, with its strings. -/
structure MemoryHandle where
  /-- `base`. -/
  base : ℤ
  /-- `size`. -/
  size : ℤ
  /-- `char name[32]`. -/
  name : Bytes
  /-- `char desc[64]`. -/
  desc : Bytes
  /-- It ends within the array. -/
  name_cstr : IsCStr 32 name
  /-- And so does this. -/
  desc_cstr : IsCStr 64 desc

/-- `memory_ctor`. -/
def memoryCtor (pconfig : MemoryHandle) (s : Slots MEM_DRIVER_MAX_DEVICES MemoryHandle)
    (c : Context) :
    Outcome (ℤ × Slots MEM_DRIVER_MAX_DEVICES MemoryHandle × Context) :=
  poolCtor (fun _ => pconfig) pconfig.name (some pconfig.desc) 0 s c

/-- `struct handle` of the file plugin. -/
structure FileHandle where
  /-- `fd`. -/
  fd : ℤ
  /-- `flags`. -/
  flags : ℤ
  /-- `filename`. -/
  filename : Bytes

/-- `basename`: the last component of a path. -/
def basename (path : Bytes) : Bytes :=
  if path = [] then ['.'.toUInt8]
  else if path.rdropWhile (· = '/'.toUInt8) = [] then ['/'.toUInt8]
  else (path.rdropWhile (· = '/'.toUInt8)).rtakeWhile (· ≠ '/'.toUInt8)

/-- `file_ctor`. -/
def fileCtor (filename : Bytes) (s : Slots FILE_DRIVER_MAX_DEVICES FileHandle) (c : Context) :
    Outcome (ℤ × Slots FILE_DRIVER_MAX_DEVICES FileHandle × Context) :=
  poolCtor (fun h => { h with filename := basename filename }) (basename filename) none 0 s c

/-- `struct pcmstream_config`. -/
structure PcmstreamConfig where
  /-- `char name[32]`. -/
  name : Bytes
  /-- `char desc[64]`. -/
  desc : Bytes
  /-- `rate`. -/
  rate : ℤ
  /-- `bits`. -/
  bits : ℤ
  /-- `channels`. -/
  channels : ℤ
  /-- `volume`. -/
  volume : UInt8
  /-- The name ends within its array. -/
  name_cstr : IsCStr 32 name
  /-- And so does the description. -/
  desc_cstr : IsCStr 64 desc

/-- `pcmstream_ctor`, where `audsrv_init` returns `init`. -/
def pcmstreamCtor (pconfig : PcmstreamConfig) (init : ℤ)
    (s : Slots PCM_DRIVER_MAX_DEVICES PcmstreamConfig) (c : Context) :
    Outcome (ℤ × Slots PCM_DRIVER_MAX_DEVICES PcmstreamConfig × Context) :=
  poolCtor (fun _ => pconfig) pconfig.name (some pconfig.desc) (if init ≠ 0 then -1 else 0) s c

/-! ### Servers -/

/-- `MAX_NUM_SERVERS`. -/
def MAX_NUM_SERVERS : ℕ := 2

/-- `NBD_SERVER_MAX_DEVICES`. -/
def NBD_SERVER_MAX_DEVICES : ℕ := 3

/-- `struct lwnbd_server`: which of the callbacks that are looked at here it has. -/
structure LwnbdServer where
  /-- Whether `new` is set. -/
  new : Bool
  /-- Whether `stop` is set. -/
  stop : Bool
  deriving DecidableEq

/-- The record of the nbd server. -/
def nbdServer : LwnbdServer := ⟨true, false⟩

/-- `struct server_instance`. -/
structure ServerInstance where
  /-- `handle`, as an index of the handles of the nbd server. -/
  handle : ℕ
  /-- `s`. -/
  s : LwnbdServer
  deriving DecidableEq

/-- `server_state_t`. -/
inductive ServerState where
  /-- `SRV_FREE`. -/
  | free
  /-- `SRV_STOPPED`. -/
  | stopped
  /-- `SRV_STARTED`. -/
  | started
  deriving DecidableEq, Repr

/-- The server is free. -/
def ServerState.isFree (st : ServerState) : Bool := st = .free

/-- The static arrays of `servers.c`, and `handle_in_use` of the nbd server. -/
structure Servers where
  /-- `servers`, none where `s` is `NULL`. -/
  servers : Vector (Option ServerInstance) MAX_NUM_SERVERS
  /-- `servers_status`. -/
  status : Vector ServerState MAX_NUM_SERVERS
  /-- `handle_in_use`. -/
  inUse : Vector HandleState NBD_SERVER_MAX_DEVICES

/-- `nbd_new`: the index of the handle it returns. -/
def nbdNew (inUse : Vector HandleState NBD_SERVER_MAX_DEVICES) :
    ℕ × Vector HandleState NBD_SERVER_MAX_DEVICES :=
  search inUse

/-- `lwnbd_server_init`, where `init` returns the record of a server whose `new`, if it has one, is
`nbd_new`. -/
def lwnbdServerInit (t : Servers) (init : Option LwnbdServer) : UInt32 × Servers :=
  match Pool.take ServerState.isFree .stopped t.status with
  | none => (-1, t)
  | some (i, status) =>
    match init with
    | none => (-1, t)
    | some s =>
      if s.new then
        let handle := nbdNew t.inUse
        (.ofNat i, ⟨t.servers.set i (some ⟨handle.1, s⟩), status, handle.2⟩)
      else (-1, t)

/-- `lwnbd_server_stop`. A call of a callback that is `NULL` is `.undefined`. -/
def lwnbdServerStop (t : Servers) (handle : UInt32) : Outcome (ℤ × Servers) :=
  if h : handle.toNat < MAX_NUM_SERVERS then
    match t.servers[handle.toNat] with
    | none => .halt .undefined
    | some si =>
      if si.s.stop then .ret (0, { t with status := t.status.set handle.toNat .free })
      else .halt .undefined
  else .halt .undefined

/-! ### Constructor calls -/

/-- The arrays of a plugin as the loader leaves them, whatever the handles hold. -/
def Slots.start {n : ℕ} {H : Type} (handles : Vector H n) : Slots n H :=
  ⟨handles, .replicate _ .free⟩

/-- What is expected of a creation, that returns `r` and takes `s` to `s'` and the context `c` to
`c'`, while the handles `live` are used. -/
structure CreatesExactly {n : ℕ} {H : Type} (live : List ℕ) (s s' : Slots n H) (c c' : Context)
    (r : ℤ) : Prop where
  /-- If it succeeds its handle is one of the array, and not used. -/
  fresh : r = 0 → c'.handle < n ∧ c'.handle ∉ live
  /-- If there is no free slot it fails, and leaves the handles and the name. -/
  full : Pool.next HandleState.isFree s.inUse = n → r ≠ 0 ∧
    s'.handles = s.handles ∧ c'.name = c.name

/-- The calls of a constructor in a sequence do what is expected. -/
def ExactFrom {n : ℕ} {C H : Type}
    (ctor : C → Slots n H → Context → Outcome (ℤ × Slots n H × Context)) :
    List (C × Context) → Slots n H → List ℕ → Prop
  | [], _, _ => True
  | (pconfig, c) :: calls, s, live => ∃ r s' c', ctor pconfig s c = .ret (r, s', c') ∧
    CreatesExactly live s s' c c' r ∧
    ExactFrom ctor calls s' (if r = 0 then c'.handle :: live else live)

section Ctor

variable {n : ℕ} {C H : Type} {s : Slots n H} {c : Context} {live : List ℕ}

theorem poolCtor_full {write : H → H} {name : Bytes} {description : Option Bytes} {ret : ℤ}
    (h : Pool.next HandleState.isFree s.inUse = n) :
    poolCtor write name description ret s c = .halt .undefined := by
  rw [poolCtor, search, Pool.take_eq_none_iff.mpr h]
  exact dif_neg (Nat.lt_irrefl n)

theorem poolCtor_take {write : H → H} {name : Bytes} {description : Option Bytes}
    {ret : ℤ} {i : Fin n} {inUse : Vector HandleState n}
    (h : Pool.take HandleState.isFree .created s.inUse = some (i, inUse)) :
    poolCtor write name description ret s c = if name.length < 32 ∧
    ∀ d ∈ description, d.length < 64 then
      .ret (ret, ⟨s.handles.set i (write (s.handles.get i)) i.isLt, inUse⟩,
        { c with handle := i, name := name, description := description.getD c.description })
      else .halt .undefined := by
  rw [poolCtor, search, h]
  exact dif_pos i.isLt

variable {write : C → H → H} {name : C → Bytes} {description : C → Option Bytes}
  {ret : C → ℤ} {x : C} {calls : List (C × Context)}

theorem not_exactFrom_cons (h : Pool.next HandleState.isFree s.inUse = n) :
    ¬ ExactFrom (fun x => poolCtor (write x) (name x) (description x) (ret x))
    ((x, c) :: calls) s live := by
  rintro ⟨r, s', c', hret, -⟩
  dsimp only at hret
  rw [poolCtor_full h] at hret
  cases hret

theorem exactFrom_cons {i : Fin n} {inUse : Vector HandleState n}
    (h : Pool.take HandleState.isFree .created s.inUse = some (i, inUse)) (hi : i.val ∉ live) :
    ExactFrom (fun x => poolCtor (write x) (name x) (description x) (ret x))
    ((x, c) :: calls) s live ↔
      ((name x).length < 32 ∧ ∀ d ∈ description x, d.length < 64) ∧
      ExactFrom (fun x => poolCtor (write x) (name x) (description x) (ret x)) calls
        ⟨s.handles.set i (write x (s.handles.get i)) i.isLt, inUse⟩
        (if ret x = 0 then i.val :: live else live) := by
  constructor
  · rintro ⟨r, s', c', hret, -, hrest⟩
    dsimp only at hret
    rw [poolCtor_take h] at hret
    split_ifs at hret with hfits
    cases hret
    exact ⟨hfits, hrest⟩
  · rintro ⟨hfits, hrest⟩
    refine ⟨_, _, _, (poolCtor_take h).trans (if_pos hfits),
      ⟨fun _ => ⟨i.isLt, hi⟩, fun hfull => ?_⟩, hrest⟩
    rw [Pool.take_eq_none_iff.mpr hfull] at h
    cases h

/-- Constructors do as expected exactly as long as there are slots, and the strings fit. The handles
that are used are before the first free one. -/
theorem exactFrom_iff (calls : List (C × Context)) (hg : Pool.Gapless HandleState.isFree s.inUse)
    (hlive : ∀ j ∈ live, j < Pool.next HandleState.isFree s.inUse) :
    ExactFrom (fun x => poolCtor (write x) (name x) (description x) (ret x)) calls s live ↔
      Pool.next HandleState.isFree s.inUse + calls.length ≤ n ∧
      ∀ call ∈ calls, (name call.1).length < 32 ∧ ∀ d ∈ description call.1, d.length < 64 := by
  induction calls generalizing s live with
  | nil => exact ⟨fun _ => ⟨Pool.next_le, by simp⟩, fun _ => trivial⟩
  | cons call calls ih =>
    obtain ⟨x, c⟩ := call
    rw [List.length_cons, List.forall_mem_cons]
    cases ht : Pool.take HandleState.isFree .created s.inUse with
    | none =>
      have hfull := Pool.take_eq_none_iff.mp ht
      exact ⟨fun h => absurd h (not_exactFrom_cons hfull), fun h => by omega⟩
    | some found =>
      obtain ⟨i, inUse⟩ := found
      obtain ⟨hi, -⟩ := Pool.take_eq_some ht
      obtain ⟨hnext, hg'⟩ := hg.take rfl ht
      have hfresh : i.val ∉ live := fun hmem => Nat.lt_irrefl _ (hi ▸ hlive _ hmem)
      have hlive' : ∀ j ∈ (if ret x = 0 then i.val :: live else live),
          j < Pool.next HandleState.isFree inUse := by
        have hold : ∀ j ∈ live, j < Pool.next HandleState.isFree inUse := fun j hj => by
          have := hlive j hj
          omega
        split_ifs
        · exact List.forall_mem_cons.mpr ⟨by omega, hold⟩
        · exact hold
      rw [exactFrom_cons ht hfresh, ih hg' hlive']
      dsimp only
      rw [hnext]
      constructor
      · rintro ⟨hfits, hlen, hall⟩
        exact ⟨by omega, hfits, hall⟩
      · rintro ⟨hlen, hfits, hall⟩
        exact ⟨hfits, by omega, hall⟩

theorem exactFrom_start_iff (write : C → H → H) (name : C → Bytes) (description : C → Option Bytes)
    (ret : C → ℤ) (handles : Vector H n) (calls : List (C × Context)) :
    ExactFrom (fun x => poolCtor (write x) (name x) (description x) (ret x)) calls (.start handles)
    [] ↔
      calls.length ≤ n ∧
      ∀ call ∈ calls, (name call.1).length < 32 ∧ ∀ d ∈ description call.1, d.length < 64 := by
  have hfree : ∀ i : Fin n, HandleState.isFree (Slots.start handles).inUse[i] = true := by
    simp [Slots.start, HandleState.isFree]
  have hstart : Pool.Handed HandleState.isFree .created (Slots.start handles).inUse [] :=
    .start hfree
  obtain ⟨hnext, hg⟩ := hstart.gapless rfl
  rw [exactFrom_iff calls hg (by simp), hnext, List.length_nil, Nat.zero_add]

end Ctor

/-! ### Server calls -/

/-- What is done to the servers. -/
inductive ServerOp where
  /-- `lwnbd_server_init`. -/
  | init
  /-- `lwnbd_server_stop`. -/
  | stop (handle : UInt32)
  deriving DecidableEq

/-- The arrays as the loader leaves them. -/
def Servers.start : Servers := ⟨.replicate _ none, .replicate _ .free, .replicate _ .free⟩

/-- No slot is free, of the servers or of the handles. -/
def Servers.Full (t : Servers) : Prop :=
  Pool.next ServerState.isFree t.status = MAX_NUM_SERVERS ∨
    Pool.next HandleState.isFree t.inUse = NBD_SERVER_MAX_DEVICES

/-- What is expected of `lwnbd_server_init`, that returns `r` and takes `t` to `t'`, while the
handles `live` are used. -/
structure InitsExactly (live : List ℕ) (t t' : Servers) (r : UInt32) : Prop where
  /-- If it succeeds its handle is one of the array, and not used. -/
  fresh : r ≠ -1 → ∃ si, t'.servers[r.toNat]? = some (some si) ∧
    si.handle < NBD_SERVER_MAX_DEVICES ∧ si.handle ∉ live
  /-- If there is no free slot it fails, and leaves everything. -/
  full : t.Full → r = -1 ∧ t' = t

/-- The handles that are used when `lwnbd_server_init` has returned `r`. -/
def Servers.liveWith (t : Servers) (live : List ℕ) (r : UInt32) : List ℕ :=
  match t.servers[r.toNat]? with
  | some (some si) => si.handle :: live
  | _ => live

/-- The calls of a sequence do what is expected: when a server is stopped its slots are free
again. -/
def ExactServers (srv : LwnbdServer) : List ServerOp → Servers → List ℕ → Prop
  | [], _, _ => True
  | .init :: ops, t, live => let x := lwnbdServerInit t (some srv)
    InitsExactly live t x.2 x.1 ∧ ExactServers srv ops x.2 (x.2.liveWith live x.1)
  | .stop handle :: ops, t, live => ∃ si t', t.servers[handle.toNat]? = some (some si) ∧
    lwnbdServerStop t handle = .ret (0, t') ∧ t'.status[handle.toNat]? = some .free ∧
    t'.inUse[si.handle]? = some .free ∧ ExactServers srv ops t' (live.erase si.handle)

/-- As many servers as handles were taken, each with its own. -/
structure Servers.Sound (t : Servers) : Prop where
  /-- The servers are the first ones. -/
  status : Pool.Gapless ServerState.isFree t.status
  /-- The handles are. -/
  inUse : Pool.Gapless HandleState.isFree t.inUse
  /-- There are as many. -/
  same : Pool.next ServerState.isFree t.status = Pool.next HandleState.isFree t.inUse
  /-- The handle of a server is used. -/
  used : ∀ (i : ℕ) (si : ServerInstance), t.servers[i]? = some (some si) →
    si.handle < Pool.next HandleState.isFree t.inUse

section Server

variable {t : Servers} {live : List ℕ} {srv : LwnbdServer}

theorem Servers.sound_start : Servers.start.Sound := by
  have hstatus : Pool.Handed ServerState.isFree .stopped Servers.start.status [] :=
    .start (by decide)
  have hinUse : Pool.Handed HandleState.isFree .created Servers.start.inUse [] := .start (by decide)
  obtain ⟨hnext, hgapless⟩ := hstatus.gapless rfl
  obtain ⟨hnext', hgapless'⟩ := hinUse.gapless rfl
  refine ⟨hgapless, hgapless', hnext.trans hnext'.symm, fun i si h => ?_⟩
  rw [Servers.start, Vector.getElem?_replicate] at h
  split_ifs at h
  cases h

theorem Servers.Sound.not_free (h : t.Sound) {i : ℕ} {si : ServerInstance}
    (hi : t.servers[i]? = some (some si)) : t.inUse[si.handle]? ≠ some .free := by
  intro hfree
  obtain ⟨hlt, hget⟩ := Vector.getElem?_eq_some_iff.mp hfree
  have hused : HandleState.isFree t.inUse[si.handle] = false :=
    Pool.not_free_of_lt (i := ⟨si.handle, hlt⟩) (h.used i si hi)
  rw [hget] at hused
  cases hused

/-- To stop a server is not as expected, whether it has a `stop` or not. -/
theorem not_exactServers_stop (h : t.Sound) (handle : UInt32) (ops : List ServerOp) :
    ¬ ExactServers srv (.stop handle :: ops) t live := by
  rintro ⟨si, t', hsi, hret, -, hfree, -⟩
  unfold lwnbdServerStop at hret
  split_ifs at hret with hlt
  rw [Vector.getElem?_eq_getElem hlt] at hsi
  rw [Option.some.inj hsi] at hret
  dsimp only at hret
  split_ifs at hret
  cases hret
  exact h.not_free (Vector.getElem?_eq_getElem hlt ▸ hsi) hfree

/-- When all are taken, `lwnbd_server_init` leaves everything. -/
theorem init_full (h : Pool.next ServerState.isFree t.status = MAX_NUM_SERVERS) :
    lwnbdServerInit t (some srv) = (-1, t) := by
  rw [lwnbdServerInit, Pool.take_eq_none_iff.mpr h]

/-- `lwnbd_server_init` takes a slot for the server, and the handle of the same index. -/
theorem init_take (hsrv : srv.new = true) (h : t.Sound) {i : Fin MAX_NUM_SERVERS}
    {status : Vector ServerState MAX_NUM_SERVERS}
    (ht : Pool.take ServerState.isFree .stopped t.status = some (i, status)) :
    ∃ (j : Fin NBD_SERVER_MAX_DEVICES) (inUse : Vector HandleState NBD_SERVER_MAX_DEVICES),
    j.val = i ∧
      Pool.take HandleState.isFree .created t.inUse = some (j, inUse) ∧
      lwnbdServerInit t (some srv) =
      (.ofNat i, ⟨t.servers.set i (some ⟨j, srv⟩), status, inUse⟩) := by
  obtain ⟨hi, -⟩ := Pool.take_eq_some ht
  have hroom : Pool.next HandleState.isFree t.inUse < NBD_SERVER_MAX_DEVICES := by
    rw [← h.same, ← hi]
    exact Nat.lt_trans i.isLt (by decide)
  have htake : Pool.take HandleState.isFree .created t.inUse = some (⟨_, hroom⟩, _) := dif_pos hroom
  refine ⟨⟨_, hroom⟩, _, ?_, htake, ?_⟩
  · rw [hi, h.same]
  · rw [lwnbdServerInit, ht]
    dsimp only
    rw [if_pos hsrv, nbdNew, search, htake]

/-- `lwnbd_server_init` does as expected, and keeps the arrays sound. -/
theorem init_exactly (hsrv : srv.new = true) (h : t.Sound)
    (hlive : ∀ j ∈ live, j < Pool.next HandleState.isFree t.inUse) :
    let x := lwnbdServerInit t (some srv)
    InitsExactly live t x.2 x.1 ∧ x.2.Sound ∧
      ∀ j ∈ x.2.liveWith live x.1, j < Pool.next HandleState.isFree x.2.inUse := by
  cases ht : Pool.take ServerState.isFree .stopped t.status with
  | none =>
    have hnone : t.liveWith live (-1) = live := by
      rw [Servers.liveWith, Vector.getElem?_eq_none (by decide)]
    rw [init_full (Pool.take_eq_none_iff.mp ht)]
    exact ⟨⟨fun hne => absurd rfl hne, fun _ => ⟨rfl, rfl⟩⟩, h, by rwa [hnone]⟩
  | some found =>
    obtain ⟨i, status⟩ := found
    obtain ⟨j, inUse, hij, htake, hrun⟩ := init_take hsrv h ht
    obtain ⟨hnext, hgapless⟩ := h.status.take rfl ht
    obtain ⟨hnext', hgapless'⟩ := h.inUse.take rfl htake
    obtain ⟨hj, -⟩ := Pool.take_eq_some htake
    have hi : (UInt32.ofNat i).toNat = i := by
      rw [UInt32.toNat_ofNat']
      exact Nat.mod_eq_of_lt (Nat.lt_trans i.isLt (by decide))
    have hserver : (t.servers.set i (some ⟨j, srv⟩))[(UInt32.ofNat i).toNat]? =
        some (some ⟨j, srv⟩) := by
      rw [hi]
      exact Vector.getElem?_set_self i.isLt
    rw [hrun]
    refine ⟨⟨fun _ => ⟨_, hserver, j.isLt, fun hmem => ?_⟩, fun hfull => ?_⟩, ?_, ?_⟩
    · exact Nat.lt_irrefl _ (hj ▸ hlive _ hmem)
    · rcases hfull with hfull | hfull
      · rw [Pool.take_eq_none_iff.mpr hfull] at ht
        cases ht
      · rw [Pool.take_eq_none_iff.mpr hfull] at htake
        cases htake
    · refine ⟨hgapless, hgapless', by rw [hnext, hnext', h.same], fun i' si hsi => ?_⟩
      dsimp only at hsi ⊢
      rw [hnext']
      by_cases heq : i.val = i'
      · rw [← heq, Vector.getElem?_set_self i.isLt] at hsi
        cases hsi
        dsimp only
        omega
      · rw [Vector.getElem?_set_ne i.isLt heq] at hsi
        exact Nat.lt_succ_of_lt (h.used i' si hsi)
    · dsimp only
      rw [Servers.liveWith]
      dsimp only
      rw [hserver, hnext']
      exact List.forall_mem_cons.mpr
        ⟨by dsimp only; omega, fun k hk => Nat.lt_succ_of_lt (hlive k hk)⟩

/-- The servers do as expected exactly if none is stopped. -/
theorem exactServers_iff (hsrv : srv.new = true) (ops : List ServerOp) (h : t.Sound)
    (hlive : ∀ j ∈ live, j < Pool.next HandleState.isFree t.inUse) :
    ExactServers srv ops t live ↔ ∀ op ∈ ops, op = .init := by
  induction ops generalizing t live with
  | nil => exact ⟨fun _ => by simp, fun _ => trivial⟩
  | cons op ops ih =>
    rw [List.forall_mem_cons]
    cases op with
    | stop handle =>
      refine ⟨fun hex => absurd hex (not_exactServers_stop h handle ops), fun hall => ?_⟩
      cases hall.1
    | init =>
      obtain ⟨hexact, hsound, hlive'⟩ := init_exactly hsrv h hlive
      have hrest := ih hsound hlive'
      exact ⟨fun hex => ⟨rfl, hrest.mp hex.2⟩, fun hall => ⟨hexact, hrest.mpr hall.2⟩⟩

end Server

/-- **Slot pools.** From arrays that are all free, a sequence of constructor calls, or of calls on
the nbd server, does what is expected exactly if there are no more constructor calls than slots, no
file has a name that is too long for a context, and no server is stopped. -/
theorem slot_pools_iff (memory : Vector MemoryHandle MEM_DRIVER_MAX_DEVICES)
    (memoryCalls : List (MemoryHandle × Context)) (file : Vector FileHandle FILE_DRIVER_MAX_DEVICES)
    (fileCalls : List (Bytes × Context)) (pcmstream : Vector PcmstreamConfig PCM_DRIVER_MAX_DEVICES)
    (pcmstreamCalls : List ((PcmstreamConfig × ℤ) × Context)) (ops : List ServerOp) :
    (ExactFrom memoryCtor memoryCalls (.start memory) [] ↔
      memoryCalls.length ≤ MEM_DRIVER_MAX_DEVICES) ∧
    (ExactFrom fileCtor fileCalls (.start file) [] ↔
      fileCalls.length ≤ FILE_DRIVER_MAX_DEVICES ∧
      ∀ call ∈ fileCalls, (basename call.1).length < 32) ∧
    (ExactFrom (fun x => pcmstreamCtor x.1 x.2) pcmstreamCalls (.start pcmstream) [] ↔
      pcmstreamCalls.length ≤ PCM_DRIVER_MAX_DEVICES) ∧
    (ExactServers nbdServer ops .start [] ↔ ∀ op ∈ ops, op = .init) := by
  refine ⟨?_, ?_, ?_, exactServers_iff rfl ops Servers.sound_start (by simp)⟩
  · have hiff :=
      exactFrom_start_iff (fun (x : MemoryHandle) _ => x) (fun x => x.name) (fun x => some x.desc)
      (fun _ => 0) memory memoryCalls
    refine hiff.trans (and_iff_left fun call _ => ⟨call.1.name_cstr.2, ?_⟩)
    rintro d ⟨⟩
    exact call.1.desc_cstr.2
  · have hiff :=
      exactFrom_start_iff (fun x (h : FileHandle) => { h with filename := basename x }) basename
      (fun _ => none) (fun _ => 0) file fileCalls
    refine hiff.trans (and_congr_right fun _ => forall₂_congr fun call _ => ?_)
    exact and_iff_left (by simp)
  · have hiff := exactFrom_start_iff (fun (x : PcmstreamConfig × ℤ) _ => x.1) (fun x => x.1.name)
      (fun x => some x.1.desc) (fun x => if x.2 ≠ 0 then -1 else 0) pcmstream pcmstreamCalls
    refine hiff.trans (and_iff_left fun call _ => ⟨call.1.1.name_cstr.2, ?_⟩)
    rintro d ⟨⟩
    exact call.1.1.desc_cstr.2

namespace Sample

/-- A slice of the memory, named `m`. -/
def memorySlice : MemoryHandle := ⟨0, 512, [109], [], by decide, by decide⟩

/-- **The eleventh export of the memory plugin is past the array**, and a server that was started
cannot be stopped. -/
theorem slot_pools_overrun :
    (¬ ∀ handles calls, ExactFrom memoryCtor calls (.start handles) []) ∧
    ¬ ∀ ops : List ServerOp, ExactServers nbdServer ops .start [] := by
  constructor
  · intro h
    have hcalls := h (.replicate _ memorySlice) (List.replicate 11 (memorySlice, Context.zero))
    have hiff :=
      exactFrom_start_iff (fun (x : MemoryHandle) _ => x) (fun x => x.name) (fun x => some x.desc)
      (fun _ => 0) (.replicate MEM_DRIVER_MAX_DEVICES memorySlice)
      (List.replicate 11 (memorySlice, Context.zero))
    exact absurd (hiff.mp hcalls).1 (by decide)
  · intro h
    have hops := (exactServers_iff rfl _ Servers.sound_start (by simp)).mp (h [.init, .stop 0])
    cases hops (.stop 0) (by simp)

end Sample

end LwNBD
