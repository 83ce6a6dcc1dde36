import LwNBD.Resumption.Rules
import LwNBD.Nbd.Session

/-!
# The wire

What is said of runs: the bytes that were sent and received in them, and the lossless
transport, which delivers the client's bytes in order and takes every byte the server
sends.

## The model

* `sentBytes`, `recvdBytes` — what went through the transport in a run.
* `wire host` — the environment with a lossless transport, over one client's byte
  stream; when the stream ends, receiving yields `0`. Whatever is not the transport is
  answered by `host`, an arbitrary environment: every behaviour of the plugins, and of
  memory that is not initialised, is that of some `host`.

## What is proved

* `wire_output`, `wire_input` — over a lossless transport, the output is what was sent
  and the input is what was received followed by what is left.
-/

namespace LwNBD

open Resumption

/-! ### What a run sends and receives -/

/-- The bytes handed to the transport. -/
def sentBytes (h : List Ev) : Bytes := h.flatMap fun
  | ⟨.send _ _ buf _, _⟩ => buf
  | _ => []

/-- The bytes the transport stored. -/
def recvdBytes (h : List Ev) : Bytes := h.flatMap fun
  | ⟨.recv _ _ _, r⟩ => r.data
  | _ => []

@[simp] theorem sentBytes_nil : sentBytes [] = [] := rfl
@[simp] theorem recvdBytes_nil : recvdBytes [] = [] := rfl

@[simp] theorem sentBytes_append (h h' : List Ev) :
    sentBytes (h ++ h') = sentBytes h ++ sentBytes h' :=
  List.flatMap_append

@[simp] theorem recvdBytes_append (h h' : List Ev) :
    recvdBytes (h ++ h') = recvdBytes h ++ recvdBytes h' := List.flatMap_append

@[simp] theorem sentBytes_send (sock : ℤ) (obj : Obj) (buf : Bytes) (flags : ℤ)
    (r : Sent buf.length) (h : List Ev) :
    sentBytes (⟨.send sock obj buf flags, r⟩ :: h) = buf ++ sentBytes h := rfl

@[simp] theorem recvdBytes_recv (sock : ℤ) (obj : Obj) (len : ℕ) (r : Recvd len) (h : List Ev) :
    recvdBytes (⟨.recv sock obj len, r⟩ :: h) = r.data ++ recvdBytes h := rfl

/-- A call that is no send. -/
def Call.isSend : Call → Bool
  | .send .. => true
  | _ => false

/-- A call that is no receive. -/
def Call.isRecv : Call → Bool
  | .recv .. => true
  | _ => false

/-- A call to a plugin. -/
def Call.isBackend : Call → Bool
  | .pread .. | .pwrite .. | .flush .. | .query .. | .getSize .. | .blockSize
      .. | .getDefaultexport => true
  | .recv .. | .send .. | .uninit _ | .note _ => false

theorem sentBytes_cons_of_not {e : Ev} (he : e.1.isSend = false) (h : List Ev) :
    sentBytes (e :: h) = sentBytes h := by
  obtain ⟨e, r⟩ := e
  cases e <;> first | rfl | simp [Call.isSend] at he

theorem recvdBytes_cons_of_not {e : Ev} (he : e.1.isRecv = false) (h : List Ev) :
    recvdBytes (e :: h) = recvdBytes h := by
  obtain ⟨e, r⟩ := e
  cases e <;> first | rfl | simp [Call.isRecv] at he

theorem sentBytes_eq_nil {h : List Ev} (hh : ∀ e ∈ calls h, e.isSend = false) :
    sentBytes h = [] := by
  induction h with
  | nil => rfl
  | cons e h ih =>
    rw [sentBytes_cons_of_not (hh e.1 List.mem_cons_self)]
    exact ih fun e' he' => hh e' (List.mem_cons_of_mem _ he')

theorem recvdBytes_eq_nil {h : List Ev} (hh : ∀ e ∈ calls h, e.isRecv = false) :
    recvdBytes h = [] := by
  induction h with
  | nil => rfl
  | cons e h ih =>
    rw [recvdBytes_cons_of_not (hh e.1 List.mem_cons_self)]
    exact ih fun e' he' => hh e' (List.mem_cons_of_mem _ he')

/-! ### Rules for the server's calls -/

section Rules

variable {σ : Type} (env : Env Call Resp σ) {s : Shared} {w : σ}

@[simp] theorem wp_ctxNow {Q : Post Shared Call Resp σ ContextNbd} :
    wp env ctxNow Q s w ↔ Q (.ret s.ctx) s w [] := Iff.rfl

@[simp] theorem wp_note {n : Note} {Q : Post Shared Call Resp σ Unit} :
    wp env (note n) Q s w ↔ Q (.ret ()) s (env w (.note n)).2 [⟨.note n, ()⟩] := Iff.rfl

@[simp] theorem wp_syncSend {sock : ℤ} {obj : Obj} {buf : Bytes} {flags : ℤ}
    {Q : Post Shared Call Resp σ (Sent buf.length)} :
    wp env (syncSend sock obj buf flags) Q s w ↔
      Q (.ret (env w (.send sock obj buf flags)).1) s (env w (.send sock obj buf flags)).2
        [⟨.send sock obj buf flags, (env w (.send sock obj buf flags)).1⟩] := Iff.rfl

@[simp] theorem wp_syncRecv {sock : ℤ} {obj : Obj} {len : ℕ}
    {Q : Post Shared Call Resp σ (Recvd len)} : wp env (syncRecv sock obj len) Q s w ↔
      Q (.ret (env w (.recv sock obj len)).1) s (env w (.recv sock obj len)).2
        [⟨.recv sock obj len, (env w (.recv sock obj len)).1⟩] := Iff.rfl

theorem wp_lwnbdPread {me : Context} {p : Plugin} (hp : me.p = some p) {n : UInt32} {o : UInt64}
    {Q : Post Shared Call Resp σ Pread} :
    wp env (lwnbdPread me n o) Q s w ↔
      Q (.ret (env w (.pread p me.handle n o)).1) s (env w (.pread p me.handle n o)).2
        [⟨.pread p me.handle n o, (env w (.pread p me.handle n o)).1⟩] := by
  rw [lwnbdPread, hp]; rfl

theorem wp_lwnbdPread_none {me : Context} (hp : me.p = none) {n : UInt32} {o : UInt64}
    {Q : Post Shared Call Resp σ Pread} :
    wp env (lwnbdPread me n o) Q s w ↔ Q (.halt .undefined) s w [] := by
  rw [lwnbdPread, hp]; rfl

end Rules

/-! ### The lossless transport -/

/-- The state of the environment of one client: what the client has sent and the server has
not yet received, what the server has sent, and the host. -/
structure Wire (β : Type) where
  /-- The bytes to come from the client. -/
  input : Bytes
  /-- The bytes sent to the client. -/
  output : Bytes
  /-- The host. -/
  host : β
  deriving DecidableEq

variable {β : Type}

theorem Wire.count_take (w : Wire β) (len : ℕ) (h : len ≤ w.input.length) :
    len ≤ (w.input.take len).length ∧ (w.input.take len).length ≤ len := by
  rw [List.length_take]
  omega

theorem Wire.count_short (w : Wire β) (len : ℕ) (h : ¬ len ≤ w.input.length) :
    0 ≤ w.input.length ∧ w.input.length ≤ len := by
  omega

/-- The answer of a lossless transport: all that was asked for, or `0` at the end of the
stream. -/
def Wire.recv (w : Wire β) (len : ℕ) : Recvd len :=
  if h : len ≤ w.input.length then .count len (w.input.take len) (w.count_take len h)
  else .count 0 w.input (w.count_short len h)

/-- The lossless transport, over a host that answers everything else. -/
def wire (host : Env Call Resp β) : Env Call Resp (Wire β)
  | w, .recv _ _ len => (w.recv len, { w with input := w.input.drop (w.recv len).data.length })
  | w, .send _ _ buf _ => (⟨buf.length, by omega, by omega⟩, { w with output := w.output ++ buf })
  | w, e => ((host w.host e).1, { w with host := (host w.host e).2 })

section Wire

variable (host : Env Call Resp β) (w : Wire β)

@[simp] theorem wire_send (sock : ℤ) (obj : Obj) (buf : Bytes) (flags : ℤ) :
    wire host w (.send sock obj buf flags) =
      (⟨buf.length, by omega, by omega⟩, { w with output := w.output ++ buf }) := rfl

theorem wire_recv (sock : ℤ) (obj : Obj) (len : ℕ) :
    wire host w (.recv sock obj len) =
      (w.recv len, { w with input := w.input.drop (w.recv len).data.length }) := rfl

/-- What is neither sent nor received is up to the host. -/
theorem wire_host {e : Call} (hs : e.isSend = false) (hr : e.isRecv = false) :
    wire host w e = ((host w.host e).1, { w with host := (host w.host e).2 }) := by
  cases e <;> first | rfl | simp [Call.isSend, Call.isRecv] at hs hr

theorem recv_data_append (len : ℕ) :
    (w.recv len).data ++ w.input.drop (w.recv len).data.length = w.input := by
  unfold Wire.recv Recvd.count
  split
  case isTrue h => simp [Nat.min_eq_left h]
  case isFalse => simp

theorem recv_ret_of_le {len : ℕ} (h : len ≤ w.input.length) : (w.recv len).ret = len := by
  simp [Wire.recv, Recvd.count, h]

theorem recv_data_of_le {len : ℕ} (h : len ≤ w.input.length) :
    (w.recv len).data = w.input.take len := by
  simp [Wire.recv, Recvd.count, h]

theorem recv_ret_of_lt {len : ℕ} (h : w.input.length < len) : (w.recv len).ret = 0 := by
  simp [Wire.recv, Recvd.count, Nat.not_le.mpr h]

theorem recv_data_of_lt {len : ℕ} (h : w.input.length < len) : (w.recv len).data = w.input := by
  simp [Wire.recv, Recvd.count, Nat.not_le.mpr h]

theorem le_of_recv {w : Wire β} {len : ℕ} (hpos : 0 < len) (h : len ≤ asSize (w.recv len).ret) :
    len ≤ w.input.length := by
  by_contra hlt
  rw [recv_ret_of_lt _ (Nat.lt_of_not_le hlt), asSize_of_nonneg (by decide) (by decide)] at h
  exact absurd hpos (Nat.not_lt_of_le h)

variable {host w} {w₁ : Wire β}

theorem wire_send_eq {sock : ℤ} {obj : Obj} {buf : Bytes} {flags : ℤ} {k : Sent buf.length}
    (h : wire host w (.send sock obj buf flags) = (k, w₁)) :
    k.1 = buf.length ∧ w₁ = { w with output := w.output ++ buf } := by
  rw [wire_send] at h
  cases h
  exact ⟨rfl, rfl⟩

/-- All that is asked for is received, if so much is to come. -/
theorem wire_recv_eq {sock : ℤ} {obj : Obj} {len : ℕ} {r : Recvd len}
    (h : wire host w (.recv sock obj len) = (r, w₁)) (hin : len ≤ w.input.length) :
    r.ret = len ∧ r.data = w.input.take len ∧ w₁ = { w with input := w.input.drop len } := by
  rw [wire_recv] at h
  cases h
  refine ⟨recv_ret_of_le w hin, recv_data_of_le w hin, ?_⟩
  rw [recv_data_of_le w hin, List.length_take, Nat.min_eq_left hin]

theorem wire_host_eq {e : Call} {r : Resp e} (h : wire host w e = (r, w₁)) (hs : e.isSend = false)
    (hr : e.isRecv = false) : (host w.host e) = (r, w₁.host) ∧ w₁.input = w.input ∧
    w₁.output = w.output := by
  rw [wire_host host w hs hr] at h
  cases h
  exact ⟨rfl, rfl, rfl⟩

end Wire

theorem wire_output_call (host : Env Call Resp β) (w : Wire β) (e : Call) (h : List Ev) :
    w.output ++ sentBytes (⟨e, (wire host w e).1⟩ :: h) = (wire host w e).2.output ++
    sentBytes h := by
  by_cases hs : e.isSend
  · cases e <;> simp [Call.isSend] at hs
    simp
  · rw [sentBytes_cons_of_not (by simpa using hs)]
    cases e <;> first | rfl | simp [Call.isSend] at hs

/-- The output of a run is what it sends. -/
theorem wire_output {α : Type} (host : Env Call Resp β) (p : Server α) (s : Shared) (w : Wire β) :
    (p.run (wire host) s w).env.output = w.output ++ sentBytes (p.run (wire host) s w).trace := by
  induction p generalizing s w with
  | ret a => simp [Prog.run]
  | halt e => simp [Prog.run]
  | get k ih => exact ih s s w
  | put s' k ih => exact ih s' w
  | call e k ih =>
    simp only [Prog.run]
    rw [ih, wire_output_call]

theorem wire_input_call (host : Env Call Resp β) (w : Wire β) (e : Call)
    (h : List Ev) (rest : Bytes) (hrest : (wire host w e).2.input = recvdBytes h ++ rest) :
    w.input = recvdBytes (⟨e, (wire host w e).1⟩ :: h) ++ rest := by
  by_cases hr : e.isRecv
  · cases e <;> simp [Call.isRecv] at hr
    rw [wire_recv] at hrest ⊢
    rw [recvdBytes_recv, List.append_assoc, ← hrest]
    exact (recv_data_append w _).symm
  · rw [recvdBytes_cons_of_not (by simpa using hr), ← hrest]
    cases e <;> first | rfl | simp [Call.isRecv] at hr

/-- The input of a run is what it receives, and what is left. -/
theorem wire_input {α : Type} (host : Env Call Resp β) (p : Server α) (s : Shared) (w : Wire β) :
    w.input = recvdBytes (p.run (wire host) s w).trace ++ (p.run (wire host) s w).env.input := by
  induction p generalizing s w with
  | ret a => simp [Prog.run]
  | halt e => simp [Prog.run]
  | get k ih => exact ih s s w
  | put s' k ih => exact ih s' w
  | call e k ih => exact wire_input_call host w e _ _ (ih _ s _)

/-- A run that neither sends nor receives leaves the streams alone. -/
theorem wire_still {α : Type} (host : Env Call Resp β) (p : Server α) (s : Shared) (w : Wire β)
    (h : ∀ e ∈ calls (p.run (wire host) s w).trace, e.isSend = false ∧ e.isRecv = false) :
    (p.run (wire host) s w).env.input = w.input ∧
    (p.run (wire host) s w).env.output = w.output := by
  constructor
  · have hin := wire_input host p s w
    rw [recvdBytes_eq_nil fun e he => (h e he).2, List.nil_append] at hin
    exact hin.symm
  · rw [wire_output host p s w, sentBytes_eq_nil fun e he => (h e he).1, List.append_nil]

theorem wire_input_le {α : Type} (host : Env Call Resp β) (p : Server α) (s : Shared) (w : Wire β) :
    (p.run (wire host) s w).env.input.length ≤ w.input.length := by
  have h := congrArg List.length (wire_input host p s w)
  rw [List.length_append] at h
  omega

end LwNBD
