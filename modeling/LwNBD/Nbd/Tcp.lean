import LwNBD.Data.Overlay
import LwNBD.Nbd.Wire
import Mathlib.Data.List.GetD

/-!
# Blocking receives

`src/src/tcp.c`: `tcp_recv_block` asks `recv` for what is missing until nothing is, or `recv`
returns no count. It is the `sync_recv_cb` of the NBD server.

## The model

* `Piece` — what `recv` answers: bytes that it stored, or that it failed. A count is an `ssize_t`,
  so it is no more than the largest.
* `recvRound`, `tcpRecvBlock` — the function, where `size_t` has `W` bits; `ssize_t` has no meaning
  past its limits.
* `IsStream`, `Receives` — a socket that delivers a stream; what is expected.
* `Connected` — a socket whose peer sends some bytes and closes it.

## What is proved

* `tcpRecvBlock_receives_iff` — for which lengths it does as expected, whatever the pieces.
* `wp_tcpRecvBlock_wire` — over a connection it is the lossless transport, however the bytes are
  cut.
-/

namespace LwNBD.Tcp

open Resumption

variable {W : ℕ}

/-! ### The function -/

/-- What is called. -/
inductive TcpCall where
  /-- `recv`, for `len` bytes to be stored at `mem`. -/
  | recv (s : ℤ) (mem len : ℕ) (flags : ℤ)
  deriving DecidableEq

/-- What `recv` answers to a request for `len` bytes: those it stored, none at the end of the
stream; or it fails. -/
abbrev Piece (W len : ℕ) := Option {data : Bytes // data.length ≤ len ∧ data.length < 2 ^ (W - 1)}

/-- The bytes. -/
def Piece.data {len : ℕ} : Piece W len → Bytes
  | none => []
  | some data => data.1

/-- The result. -/
def Piece.ret {len : ℕ} : Piece W len → ℤ
  | none => -1
  | some data => data.1.length

/-- The answers to a call. -/
abbrev TcpResp (W : ℕ) : TcpCall → Type
  | .recv _ _ len _ => Piece W len

/-- A function, over the memory. -/
abbrev TcpProg (W : ℕ) (α : Type) := Prog (ℕ → UInt8) TcpCall (TcpResp W) α

/-- A number in an `ssize_t`. -/
def ssize (W : ℕ) (n : ℤ) : TcpProg W ℤ :=
  if -2 ^ (W - 1) ≤ n ∧ n < 2 ^ (W - 1) then pure n else .halt .undefined

/-- Bytes stored at `mem`. -/
def storeAt (m : ℕ → UInt8) (mem : ℕ) (data : Bytes) : ℕ → UInt8 :=
  overlay m mem data.length fun i => data.getD i 0

/-- `recv`. -/
def recv (s : ℤ) (mem len : ℕ) (flags : ℤ) : TcpProg W ℤ := do
  let r : Piece W len ← Prog.perform (TcpCall.recv s mem len flags)
  Prog.modify fun m => storeAt m mem r.data
  pure r.ret

/-- The variables of the loop. -/
structure RecvVars where
  /-- `left`. -/
  left : ℤ
  /-- `totalRead`. -/
  totalRead : ℤ

/-- A round of the loop. -/
def recvRound (s : ℤ) (mem : ℕ) (flags : ℤ) (x : RecvVars) : TcpProg W (Ctl RecvVars ℤ) := do
  let bytesRead ← recv s (mem + x.totalRead.toNat) (BitVec.ofInt W x.left).toNat flags
  if bytesRead ≤ 0 then pure (.done bytesRead)
  else do
    let left ← ssize W (x.left - bytesRead)
    let totalRead ← ssize W (x.totalRead + bytesRead)
    if left ≠ 0 then pure (.next ⟨left, totalRead⟩) else pure (.done totalRead)

/-- `tcp_recv_block`. -/
def tcpRecvBlock (fuel : ℕ) (s : ℤ) (mem : ℕ) (len : BitVec W) (flags : ℤ) : TcpProg W ℤ :=
  Prog.loop fuel (recvRound s mem flags) ⟨len.toInt, 0⟩

/-! ### What is expected -/

/-- A call, with its answer. -/
abbrev RecvEv (W : ℕ) := Event TcpCall (TcpResp W)

/-- The bytes that a call stored. -/
def bytes : RecvEv W → Bytes
  | ⟨.recv .., r⟩ => r.data

/-- Its result. -/
def result : RecvEv W → ℤ
  | ⟨.recv .., r⟩ => r.ret

/-- The bytes that were stored. -/
def delivered (t : List (RecvEv W)) : Bytes := t.flatMap bytes

/-- Each call asks for what is missing, and for no more. -/
def Asks (s : ℤ) (mem len : ℕ) (flags : ℤ) (t : List (RecvEv W)) : Prop :=
  ∀ t₁ e t₂, t = t₁ ++ e :: t₂ → (delivered t₁).length ≤ len ∧
    e.1 = .recv s (mem + (delivered t₁).length) (len - (delivered t₁).length) flags

variable {σ : Type}

/-- A call of `recv`, with its answer. -/
def recvAt (env : Env TcpCall (TcpResp W) σ) (s : ℤ) (mem len : ℕ) (flags : ℤ) (w : σ) : RecvEv W :=
  ⟨.recv s mem len flags, (env w (.recv s mem len flags)).1⟩

/-- What it leaves. -/
def worldAt (env : Env TcpCall (TcpResp W) σ) (s : ℤ) (mem len : ℕ) (flags : ℤ) (w : σ) : σ :=
  (env w (.recv s mem len flags)).2

/-- The socket delivers the stream in order, from a position that the environment knows, in pieces
of any length. -/
structure IsStream (env : Env TcpCall (TcpResp W) σ) (s : ℤ) (stream : ℕ → UInt8) (pos : σ → ℕ) :
    Prop where
  /-- The bytes that are stored are those at the position. -/
  data : ∀ w mem len flags, bytes (recvAt env s mem len flags w) =
    stretch stream (pos w) (bytes (recvAt env s mem len flags w)).length
  /-- They are taken from the stream. -/
  pos : ∀ w mem len flags, pos (worldAt env s mem len flags w) = pos w +
    (bytes (recvAt env s mem len flags w)).length

/-- What is expected of `tcp_recv_block`. -/
structure Receives (stream : ℕ → UInt8) (pos : σ → ℕ) (s : ℤ) (mem len : ℕ) (flags : ℤ)
    (m : ℕ → UInt8) (w : σ) (o : Outcome ℤ) (m' : ℕ → UInt8) (w' : σ) (t : List (RecvEv W)) :
    Prop where
  /-- It returns. -/
  returns : ∃ r, o = .ret r
  /-- It returns `len` if so many bytes were delivered before a result that is no count. -/
  whole : o = .ret len ↔ ∃ t₁, t₁ <+: t ∧ (∀ e ∈ t₁, 0 < result e) ∧ (delivered t₁).length = len
  /-- Otherwise it returns the first result that is none. -/
  broken : o ≠ .ret len → ∃ t₁ e, t = t₁ ++ [e] ∧ (∀ e' ∈ t₁, 0 < result e') ∧
    result e ≤ 0 ∧ o = .ret (result e)
  /-- The bytes are the next ones of the stream. -/
  stored : o = .ret len → stretch m' mem len = stretch stream (pos w) len
  /-- Nothing else is stored to. -/
  outside : ∀ p, ¬ (mem ≤ p ∧ p < mem + len) → m' p = m p
  /-- What is asked for. -/
  asks : Asks s mem len flags t
  /-- No byte beyond is taken. -/
  taken : pos w' ≤ pos w + len

/-! ### What a run does -/

section Run

variable {env : Env TcpCall (TcpResp W) σ} {s : ℤ} {mem len k : ℕ} {flags : ℤ} {m : ℕ → UInt8}
  {w : σ} {e : RecvEv W} {t t' : List (RecvEv W)}

@[simp] theorem delivered_nil : delivered ([] : List (RecvEv W)) = [] := rfl

@[simp] theorem delivered_append : delivered (t ++ t') = delivered t ++ delivered t' :=
  List.flatMap_append

@[simp] theorem delivered_singleton : delivered [e] = bytes e := List.append_nil _

theorem result_of_pos (h : 0 < result e) : result e = (bytes e).length := by
  obtain ⟨⟨s, mem, len, flags⟩, r⟩ := e
  cases r with
  | none => exact absurd h (show ¬ (0 : ℤ) < -1 by decide)
  | some data => rfl

theorem bytes_of_le (h : result e ≤ 0) : bytes e = [] := by
  obtain ⟨⟨s, mem, len, flags⟩, r⟩ := e
  cases r with
  | none => rfl
  | some data => exact List.eq_nil_of_length_eq_zero
                   (Int.ofNat_eq_zero.mp (Int.le_antisymm h (Int.natCast_nonneg _)))

theorem length_bytes_le (r : Piece W len) : (bytes ⟨.recv s mem len flags, r⟩).length ≤ len := by
  cases r with
  | none => exact Nat.zero_le len
  | some data => exact data.2.1

theorem length_delivered_le (h : t <+: t') : (delivered t).length ≤ (delivered t').length := by
  obtain ⟨t₁, rfl⟩ := h
  rw [delivered_append, List.length_append]
  exact Nat.le_add_right _ _

theorem storeAt_append (d d' : Bytes) :
    storeAt (storeAt m mem d) (mem + d.length) d' = storeAt m mem (d ++ d') := by
  rw [storeAt, storeAt, storeAt, List.length_append, ← overlay_overlay]
  refine (overlay_congr (fun p _ => ?_) fun i hi => ?_)
  · refine congrFun (overlay_congr (fun _ _ => rfl) fun i hi => ?_) p
    exact (List.getD_append _ _ _ _ hi).symm
  · rw [List.getD_append_right _ _ _ _ (Nat.le_add_right _ _), Nat.add_sub_cancel_left]

theorem stretch_storeAt (d : Bytes) : stretch (storeAt m mem d) mem d.length = d := by
  rw [storeAt, stretch_overlay, stretch_getD (Nat.le_of_eq (Nat.zero_add _)),
    List.drop_zero, List.take_length]

theorem ssize_natCast {n : ℕ} (h : n < 2 ^ (W - 1)) : ssize W n = pure (n : ℤ) := by
  have hlow : -2 ^ (W - 1) ≤ (0 : ℤ) := Int.neg_nonpos_of_nonneg (Int.pow_nonneg (by decide))
  exact if_pos ⟨Int.le_trans hlow (Int.natCast_nonneg n), by exact_mod_cast h⟩

theorem toInt_of_lt {n : BitVec W} (h : n.toNat < 2 ^ (W - 1)) : n.toInt = n.toNat := by
  refine BitVec.toInt_eq_toNat_of_lt ?_
  cases W with
  | zero => rw [BitVec.of_length_zero (x := n)]; decide
  | succ W =>
    rw [Nat.add_sub_cancel] at h
    omega

/-- What is no `ssize_t` becomes a negative number. -/
theorem toInt_of_ge {n : BitVec W} (h : 2 ^ (W - 1) ≤ n.toNat) :
    -2 ^ (W - 1) ≤ n.toInt ∧ n.toInt < 0 := by
  have hlt := n.isLt
  cases W with
  | zero => exact absurd (Nat.lt_of_le_of_lt h hlt) (Nat.lt_irrefl _)
  | succ W =>
    rw [Nat.add_sub_cancel] at h ⊢
    have hint : ((2 ^ W : ℕ) : ℤ) = 2 ^ W := by push_cast; rfl
    rw [BitVec.toInt_eq_toNat_cond, if_neg (by omega)]
    omega

/-- A negative number becomes a length that is not `0`. -/
theorem toNat_ofInt_pos (hW : 2 ≤ W) {n : ℤ} (hlow : -2 ^ (W - 1) ≤ n) (hneg : n < 0) :
    0 < (BitVec.ofInt W n).toNat := by
  have hlt : (2 : ℤ) ^ (W - 1) < 2 ^ W := by
    exact_mod_cast Nat.pow_lt_pow_right (by decide) (Nat.sub_lt (by omega) (by decide))
  have hmod : n % ((2 ^ W : ℕ) : ℤ) = n + 2 ^ W := by
    rw [← Int.add_emod_right]
    push_cast
    exact Int.emod_eq_of_lt (by omega) (by omega)
  rw [BitVec.toNat_ofInt, hmod, ← Int.pos_iff_toNat_pos]
  omega

theorem toNat_ofInt_natCast {n : ℕ} (h : n < 2 ^ (W - 1)) : (BitVec.ofInt W n).toNat = n := by
  rw [BitVec.ofInt_natCast, BitVec.toNat_ofNat]
  exact Nat.mod_eq_of_lt (Nat.lt_of_lt_of_le h (Nat.pow_le_pow_right (by decide) (Nat.sub_le W 1)))


theorem wp_ssize {α : Type} {n : ℤ} {f : ℤ → TcpProg W α}
    {Q : Post (ℕ → UInt8) TcpCall (TcpResp W) σ α} (h : -2 ^ (W - 1) ≤ n ∧ n < 2 ^ (W - 1) →
      wp env (f n) Q m w) (hnot : Q (.halt .undefined) m w []) :
    wp env (ssize W n >>= f) Q m w := by
  unfold ssize
  split_ifs with hn
  · exact h hn
  · exact hnot

theorem wp_recv {Q : Post (ℕ → UInt8) TcpCall (TcpResp W) σ ℤ} :
    wp env (recv s mem len flags) Q m w ↔ Q (.ret (result (recvAt env s mem len flags w)))
      (storeAt m mem (bytes (recvAt env s mem len flags w))) (worldAt env s mem len flags w)
      [recvAt env s mem len flags w] := Iff.rfl

/-- A round, while something is missing: `recv` returns no count, or fewer bytes than are missing,
or all. -/
theorem wp_recvRound {Q : Post (ℕ → UInt8) TcpCall (TcpResp W) σ (Ctl RecvVars ℤ)}
    {e : RecvEv W} {w' : σ} (he : recvAt env s (mem + k) (len - k) flags w = e)
    (hw : worldAt env s (mem + k) (len - k) flags w = w') (hk : k < len) (hmax : len < 2 ^ (W - 1))
    (hfail : result e ≤ 0 → Q (.ret (.done (result e))) (storeAt m (mem + k) (bytes e)) w' [e])
    (hmore : 0 < result e → k + (bytes e).length < len →
      Q (.ret (.next ⟨(len - (k + (bytes e).length) : ℕ), (k + (bytes e).length : ℕ)⟩))
        (storeAt m (mem + k) (bytes e)) w' [e])
    (hwhole : 0 < result e → k + (bytes e).length = len →
      Q (.ret (.done len)) (storeAt m (mem + k) (bytes e)) w' [e]) :
    wp env (recvRound s mem flags ⟨(len - k : ℕ), k⟩) Q m w := by
  unfold recvRound
  dsimp only
  rw [Int.toNat_natCast, toNat_ofInt_natCast (by omega)]
  rw [wp_bind, wp_recv, Post.seq_ret, he, hw]
  have hle : (bytes e).length ≤ len - k := by
    rw [← he]
    exact length_bytes_le _
  split_ifs with h0
  · exact hfail h0
  · have hpos : 0 < result e := Int.not_le.mp h0
    have hret := result_of_pos hpos
    rw [show ((len - k : ℕ) : ℤ) - result e = (len - (k + (bytes e).length) : ℕ) by omega,
      show (k : ℤ) + result e = (k + (bytes e).length : ℕ) by omega,
      ssize_natCast (by omega), ssize_natCast (by omega), pure_bind, pure_bind]
    split_ifs with hmissing
    · exact hmore hpos (by omega)
    · have hall : k + (bytes e).length = len := by omega
      rw [hall]
      exact hwhole hpos hall

theorem Asks.nil : Asks s mem len flags ([] : List (RecvEv W)) := by
  intro t₁ e t₂ heq
  exact absurd heq.symm (List.append_ne_nil_of_right_ne_nil t₁ (List.cons_ne_nil e t₂))

theorem Asks.concat (h : Asks s mem len flags t) (hk : (delivered t).length ≤ len) :
    Asks s mem len flags (t ++
      [recvAt env s (mem + (delivered t).length) (len - (delivered t).length) flags w]) := by
  intro t₁ e t₂ heq
  rcases List.eq_nil_or_concat' t₂ with rfl | ⟨t₃, e', rfl⟩
  · obtain ⟨rfl, he⟩ := List.append_inj' heq rfl
    cases he
    exact ⟨hk, rfl⟩
  · rw [← List.cons_append, ← List.append_assoc] at heq
    obtain ⟨rfl, -⟩ := List.append_inj' heq rfl
    exact h t₁ e t₃ rfl

/-- What a run gathers: what was delivered is stored from `mem` on, and it ends when that is all, or
with the first result that is no count. -/
structure Gathers (s : ℤ) (mem len : ℕ) (flags : ℤ) (m : ℕ → UInt8) (o : Outcome ℤ) (m' : ℕ → UInt8)
    (t : List (RecvEv W)) : Prop where
  /-- What is stored. -/
  stored : m' = storeAt m mem (delivered t)
  /-- What is asked for. -/
  asks : Asks s mem len flags t
  /-- How it ends. -/
  ends : o = .ret len ∧ (∀ e ∈ t, 0 < result e) ∧ (delivered t).length = len ∨
    ∃ t₁ e, t = t₁ ++ [e] ∧ (∀ e' ∈ t₁, 0 < result e') ∧ (delivered t₁).length < len ∧
      result e ≤ 0 ∧ o = .ret (result e)

end Run

section Loop

variable {env : Env TcpCall (TcpResp W) σ} {s : ℤ} {mem : ℕ} {flags : ℤ} {m : ℕ → UInt8}
  {w : σ} {len : BitVec W}

/-- `tcp_recv_block` gathers pieces, whatever `recv` answers. What each call keeps (`J`) is kept. -/
theorem wp_tcpRecvBlock (J : σ → List (RecvEv W) → Prop)
    (hJ : ∀ w t k, k < len.toNat → J w t →
      J (worldAt env s (mem + k) (len.toNat - k) flags w)
      (t ++ [recvAt env s (mem + k) (len.toNat - k) flags w]))
    (hlen : 0 < len.toNat) (hmax : len.toNat < 2 ^ (W - 1)) {fuel : ℕ} (hfuel : len.toNat <
      fuel) (h : J w []) :
    wp env (tcpRecvBlock fuel s mem len flags)
      (fun o m' w' t => Gathers s mem len.toNat flags m o m' t ∧ J w' t) m w := by
  rw [tcpRecvBlock, ← Post.after_nil fun o m' w' t => Gathers s mem len.toNat flags m o m' t ∧
    J w' t]
  have hleft : len.toInt = len.toNat := toInt_of_lt hmax
  have hstart : m = storeAt m mem (delivered ([] : List (RecvEv W))) := overlay_zero.symm
  refine wp_loop_total env (fun x m' w' t => (delivered t).length < len.toNat ∧
      x = ⟨(len.toNat - (delivered t).length : ℕ), (delivered t).length⟩ ∧
      m' = storeAt m mem (delivered t) ∧ Asks s mem len.toNat flags t ∧ (∀ e ∈ t, 0 < result e) ∧
      J w' t) (fun x _ _ => x.left.toNat) ?_ fuel _ m w []
    (by rwa [hleft]) ⟨hlen, by rw [hleft]; rfl, hstart, .nil, List.forall_mem_nil _, h⟩
  rintro x m' w' t ⟨hk, rfl, rfl, hasks, hpos, hJt⟩
  have hasks' : Asks s mem len.toNat flags (t ++ [recvAt env s (mem + (delivered t).length)
      (len.toNat - (delivered t).length) flags w']) := hasks.concat (Nat.le_of_lt hk)
  have hJt' := hJ w' t (delivered t).length hk hJt
  refine wp_recvRound rfl rfl hk hmax ?_ ?_ ?_
  all_goals
    generalize recvAt env s (mem +
    (delivered t).length) (len.toNat - (delivered t).length) flags w' = e at *
    rw [storeAt_append]
  · intro hfail
    rw [Post.round_done, ← delivered_singleton, ← delivered_append]
    exact ⟨⟨rfl, hasks', .inr ⟨t, e, rfl, hpos, hk, hfail, rfl⟩⟩, hJt'⟩
  · intro hcount hmore
    have hsome : 0 < (bytes e).length := Int.natCast_pos.mp (result_of_pos hcount ▸ hcount)
    rw [Post.round_next, delivered_append, delivered_singleton,
      List.length_append, Int.toNat_natCast, Int.toNat_natCast]
    refine ⟨⟨hmore, rfl, rfl, hasks', ?_, hJt'⟩, by omega⟩
    exact List.forall_mem_append.mpr ⟨hpos, List.forall_mem_singleton.mpr hcount⟩
  · intro hcount hwhole
    rw [Post.round_done, ← delivered_singleton, ← delivered_append]
    refine ⟨⟨rfl, hasks', .inl ⟨rfl, ?_, ?_⟩⟩, hJt'⟩
    · exact List.forall_mem_append.mpr ⟨hpos, List.forall_mem_singleton.mpr hcount⟩
    · rw [delivered_append, delivered_singleton, List.length_append]
      exact hwhole

end Loop

/-! ### A stream -/

section Stream

variable {env : Env TcpCall (TcpResp W) σ} {s : ℤ} {mem : ℕ} {flags : ℤ} {m : ℕ →
  UInt8} {w : σ} {len : ℕ} {stream : ℕ → UInt8} {pos : σ → ℕ}

/-- What is delivered is a stretch of the stream. -/
theorem IsStream.delivers (hs : IsStream env s stream pos) {w₀ w : σ} {t : List (RecvEv W)} (k : ℕ)
    (h : delivered t = stretch stream (pos w₀) (delivered t).length ∧
      pos w = pos w₀ + (delivered t).length) :
    delivered (t ++ [recvAt env s (mem + k) (len - k) flags w]) =
      stretch stream (pos w₀) (delivered (t ++ [recvAt env s (mem + k) (len - k) flags w])).length ∧
    pos (worldAt env s (mem + k) (len - k) flags w) =
      pos w₀ + (delivered (t ++ [recvAt env s (mem + k) (len - k) flags w])).length := by
  obtain ⟨hdata, hpos⟩ := h
  have hnext := hs.data w (mem + k) (len - k) flags
  have hmoved := hs.pos w (mem + k) (len - k) flags
  rw [delivered_append, delivered_singleton, List.length_append]
  constructor
  · rw [stretch_add, ← hdata, ← hpos]
    exact congrArg (delivered t ++ ·) hnext
  · rw [← Nat.add_assoc, ← hpos]
    exact hmoved

theorem Gathers.length_le {o : Outcome ℤ} {m' : ℕ → UInt8} {t : List (RecvEv W)}
    (h : Gathers s mem len flags m o m' t) : (delivered t).length ≤ len := by
  rcases h.ends with ⟨-, -, hall⟩ | ⟨t₁, e, rfl, -, hlt, hfail, -⟩
  · exact Nat.le_of_eq hall
  · rw [delivered_append, delivered_singleton, bytes_of_le hfail, List.append_nil]
    exact Nat.le_of_lt hlt

/-- What is gathered from a stream is as expected. -/
theorem Gathers.receives {o : Outcome ℤ} {m' : ℕ → UInt8} {w' : σ} {t : List (RecvEv W)}
    (h : Gathers s mem len flags m o m' t)
    (hdata : delivered t = stretch stream (pos w) (delivered t).length)
    (hpos : pos w' = pos w + (delivered t).length) (hlen : 0 < len) :
    Receives stream pos s mem len flags m w o m' w' t := by
  have hle := h.length_le
  have houtside : ∀ p, ¬ (mem ≤ p ∧ p < mem + len) → m' p = m p := by
    intro p hp
    rw [h.stored, storeAt, overlay_out (by omega)]
  rcases h.ends with ⟨ho, hcounts, hall⟩ | ⟨t₁, e, rfl, hcounts, hlt, hfail, ho⟩
  · refine ⟨⟨len, ho⟩, iff_of_true ho ⟨t, List.prefix_refl t, hcounts, hall⟩,
      fun hne => absurd ho hne, fun _ => ?_, houtside, h.asks, by omega⟩
    rw [← hall, ← hdata, h.stored, stretch_storeAt]
  · -- A result that is no count is not `len`, and with it nothing more is delivered.
    have hne : o ≠ .ret len := by
      rw [ho]
      intro heq
      have := Outcome.ret.inj heq
      omega
    refine ⟨⟨_, ho⟩, iff_of_false hne ?_, fun _ => ⟨t₁, e, rfl, hcounts, hfail, ho⟩,
      fun heq => absurd heq hne, houtside, h.asks, by omega⟩
    rintro ⟨t', ht', -, hall⟩
    have hmore := length_delivered_le ht'
    rw [delivered_append, delivered_singleton, bytes_of_le hfail, List.append_nil, hall] at hmore
    omega

/-- `tcp_recv_block` does as expected if the length is an `ssize_t`. -/
theorem wp_tcpRecvBlock_receives {len : BitVec W} (hs : IsStream env s stream pos)
    (hlen : 0 < len.toNat) (hmax : len.toNat < 2 ^ (W - 1)) {fuel : ℕ} (hfuel : len.toNat < fuel) :
    wp env (tcpRecvBlock fuel s mem len flags) (Receives stream pos s mem len.toNat flags m w)
    m w := by
  refine wp_mono env ?_ (wp_tcpRecvBlock
    (fun w' t => delivered t = stretch stream (pos w) (delivered t).length ∧ pos w' = pos w +
    (delivered t).length) (fun _ _ k _ => hs.delivers k) hlen hmax hfuel ⟨rfl, rfl⟩)
  rintro o m' w' t ⟨hgathers, hdata, hpos⟩
  exact hgathers.receives hdata hpos hlen

/-! ### Lengths that are no `ssize_t` -/

/-- A socket that delivers the stream byte by byte. -/
def trickle (hW : 2 ≤ W) (stream : ℕ → UInt8) : Env TcpCall (TcpResp W) ℕ
  | p, .recv _ _ len _ =>
    if h : 0 < len then (some ⟨[stream p], h, Nat.one_lt_two_pow (Nat.sub_ne_zero_of_lt hW)⟩, p + 1)
      else (none, p)

theorem trickle_recv (hW : 2 ≤ W) (p n : ℕ) :
    bytes (recvAt (trickle hW stream) s mem n flags p) = (if 0 < n then [stream p] else []) ∧
    worldAt (trickle hW stream) s mem n flags p = p + if 0 < n then 1 else 0 := by
  unfold recvAt worldAt
  by_cases h : 0 < n
  · have hsome : trickle hW stream p (.recv s mem n flags) =
        (some ⟨[stream p], h, Nat.one_lt_two_pow (Nat.sub_ne_zero_of_lt hW)⟩, p + 1) := dif_pos h
    rw [hsome, if_pos h, if_pos h]
    exact ⟨rfl, rfl⟩
  · have hnone : trickle hW stream p (.recv s mem n flags) = (none, p) := dif_neg h
    rw [hnone, if_neg h, if_neg h]
    exact ⟨rfl, rfl⟩

theorem trickle_isStream (hW : 2 ≤ W) (s : ℤ) (stream : ℕ → UInt8) :
    IsStream (trickle hW stream) s stream id := by
  constructor
  · intro p mem n flags
    rw [(trickle_recv hW p n).1]
    split_ifs <;> rfl
  · intro p mem n flags
    rw [(trickle_recv hW p n).1, (trickle_recv hW p n).2]
    split_ifs <;> rfl

/-- From it, `tcp_recv_block` returns nothing if the length is not an `ssize_t`: `left` is negative,
and becomes less until it has no meaning. -/
theorem wp_tcpRecvBlock_trickle (hW : 2 ≤ W) {len : BitVec W} (hmax : 2 ^ (W - 1) ≤ len.toNat)
    (fuel p : ℕ) :
    wp (trickle hW stream) (tcpRecvBlock fuel s mem len flags) (fun o _ _ _ => ∀ r, o ≠ .ret r) m
    p := by
  rw [tcpRecvBlock, ← Post.after_nil fun o _ _ _ => ∀ r, o ≠ .ret r]
  refine wp_loop _ (fun x _ _ _ => -2 ^ (W - 1) ≤ x.left ∧ x.left < 0)
    (fun _ _ _ _ _ => nofun) ?_ fuel _ m p [] (toInt_of_ge hmax)
  rintro ⟨left, totalRead⟩ m' p' t ⟨hlow, hneg⟩
  dsimp only at hlow hneg
  have hasks := toNat_ofInt_pos hW hlow hneg
  unfold recvRound
  rw [wp_bind, wp_recv, Post.seq_ret]
  have hbytes :
      bytes (recvAt (trickle hW stream) s (mem + totalRead.toNat) (BitVec.ofInt W left).toNat flags
      p') = [stream p'] := by rw [(trickle_recv hW p' _).1, if_pos hasks]
  dsimp only
  generalize recvAt (trickle hW stream) s (mem + totalRead.toNat) (BitVec.ofInt W left).toNat flags
    p' = e at *
  have hresult : result e = 1 := by
    have hpos : 0 < result e := by
      by_contra hle
      rw [bytes_of_le (Int.not_lt.mp hle)] at hbytes
      cases hbytes
    rw [result_of_pos hpos, hbytes]
    rfl
  rw [hresult, if_neg (by decide)]
  refine wp_ssize (fun hleft => ?_) nofun
  refine wp_ssize (fun _ => ?_) nofun
  rw [if_pos (by omega)]
  exact ⟨hleft.1, by dsimp only; omega⟩

end Stream

/-- **When `tcp_recv_block` does as expected**: for a length that is an `ssize_t`, and for no other,
whatever the stream and the pieces in which it is delivered. -/
theorem tcpRecvBlock_receives_iff (hW : 2 ≤ W) (len : BitVec W) (hlen : 0 < len.toNat)
    (stream : ℕ → UInt8) (s : ℤ) (mem : ℕ) (flags : ℤ) :
    (∀ (σ : Type) (env : Env TcpCall (TcpResp W) σ) (pos : σ → ℕ), IsStream env s stream pos →
      ∀ m w, ∃ fuel, wp env (tcpRecvBlock fuel s mem len flags)
      (Receives stream pos s mem len.toNat flags m w) m w) ↔
    len.toNat < 2 ^ (W - 1) := by
  constructor
  · intro h
    by_contra hge
    obtain ⟨fuel, hreceives⟩ :=
      h ℕ (trickle hW stream) id (trickle_isStream hW s stream) (fun _ => 0) 0
    obtain ⟨r, hr⟩ := hreceives.returns
    exact wp_tcpRecvBlock_trickle hW (Nat.not_lt.mp hge) fuel 0 r hr
  · intro hmax σ env pos hs m w
    exact ⟨len.toNat + 1, wp_tcpRecvBlock_receives hs hlen hmax (Nat.lt_succ_self _)⟩

namespace Sample

/-- A block of 512 bytes, delivered byte by byte, with a `size_t` of 64 bits. -/
theorem tcpRecvBlock_receives_block : ∃ fuel, wp (trickle (W := 64) (by decide) fun _ => 0)
    (tcpRecvBlock fuel 3 4096 512 0) (Receives (fun _ => 0) id 3 4096 512 0 (fun _ => 0) 0)
    (fun _ => 0) 0 :=
  (tcpRecvBlock_receives_iff (by decide) 512 (by decide) (fun _ => 0) 3 4096 0).mpr (by decide) ℕ _
    id (trickle_isStream (by decide) 3 fun _ => 0) _ _

/-- **A length of `2 ^ 63`**: with the first byte `left` has no meaning. -/
theorem tcpRecvBlock_not_receives : ¬ ∃ fuel, wp (trickle (W := 64) (by decide) fun _ => 0)
    (tcpRecvBlock fuel 3 0 (.ofNat 64 (2 ^ 63)) 0)
    (Receives (fun _ => 0) id 3 0 (2 ^ 63) 0 (fun _ => 0) 0) (fun _ => 0) 0 := by
  rintro ⟨fuel, hreceives⟩
  obtain ⟨r, hr⟩ := hreceives.returns
  exact wp_tcpRecvBlock_trickle (by decide) (by decide) fuel 0 r hr

end Sample

/-! ### What the server is proved with -/

section Server

variable {env : Env TcpCall (TcpResp W) σ} {s : ℤ} {mem : ℕ} {flags : ℤ} {m : ℕ → UInt8}
  {w : σ} {len : BitVec W}

/-- A connection: the peer sends some bytes and closes it. `recv` delivers them in pieces of any
length, and nothing only at the end. -/
structure Connected (env : Env TcpCall (TcpResp W) σ) (s : ℤ) (input : σ → Bytes) : Prop where
  /-- It does not fail. -/
  counts : ∀ w mem len flags, 0 ≤ result (recvAt env s mem len flags w)
  /-- The bytes are the next ones. -/
  next : ∀ w mem len flags, input w = bytes (recvAt env s mem len flags w) ++
    input (worldAt env s mem len flags w)
  /-- There are some, unless there are none to come. -/
  ends : ∀ w mem len flags, 0 < len → bytes (recvAt env s mem len flags w) = [] → input w = []

/-- What was delivered, and what is to come. -/
def Delivers (input : σ → Bytes) (w₀ w : σ) (t : List (RecvEv W)) : Prop :=
  input w₀ = delivered t ++ input w ∧ ∀ t₁ e, t = t₁ ++ [e] → 0 ≤ result e ∧
    (result e ≤ 0 → input w = [])

theorem Connected.delivers {input : σ → Bytes} (hc : Connected env s input) {w₀ w : σ}
    {t : List (RecvEv W)} {n k : ℕ} (hk : k < n) (h : Delivers input w₀ w t) :
    Delivers input w₀ (worldAt env s (mem + k) (n - k) flags w)
      (t ++ [recvAt env s (mem + k) (n - k) flags w]) := by
  have hnext := hc.next w (mem + k) (n - k) flags
  refine ⟨?_, fun t₁ e heq => ?_⟩
  · rw [delivered_append, delivered_singleton, List.append_assoc, ← hnext]
    exact h.1
  · obtain ⟨rfl, he⟩ := List.append_inj' heq rfl
    cases he
    refine ⟨hc.counts _ _ _ _, fun hle => ?_⟩
    have hnil := bytes_of_le hle
    rw [hc.ends w _ _ _ (Nat.sub_pos_of_lt hk) hnil, hnil] at hnext
    exact hnext.symm

theorem wp_tcpRecvBlock_zero {input : σ → Bytes} (hc : Connected env s input)
    (hlen : len.toNat = 0) {fuel : ℕ} (hfuel : 0 < fuel) :
    wp env (tcpRecvBlock fuel s mem len flags) (fun o m' w' t => o = .ret 0 ∧ m' = m ∧
      delivered t = [] ∧ input w' = input w) m w := by
  obtain ⟨n, rfl⟩ := Nat.exists_eq_succ_of_ne_zero (Nat.pos_iff_ne_zero.mp hfuel)
  obtain rfl : len = 0#W := BitVec.eq_of_toNat_eq hlen
  have hasks : (BitVec.ofInt W (BitVec.toInt 0#W)).toNat = 0 := by simp
  unfold tcpRecvBlock
  rw [wp_loop_succ]
  unfold recvRound
  rw [wp_bind, wp_recv, Post.seq_ret]
  dsimp only
  rw [hasks]
  have hbytes : bytes (recvAt env s (mem + Int.toNat 0) 0 flags w) = [] :=
    List.eq_nil_of_length_eq_zero (Nat.le_zero.mp (length_bytes_le _))
  have hnext := hc.next w (mem + Int.toNat 0) 0 flags
  have hcount := hc.counts w (mem + Int.toNat 0) 0 flags
  generalize recvAt env s (mem + Int.toNat 0) 0 flags w = e at *
  have hresult : result e = 0 := by
    refine Int.le_antisymm (Int.not_lt.mp fun hpos => ?_) hcount
    have hret := result_of_pos hpos
    rw [hbytes, List.length_nil] at hret
    omega
  rw [hbytes] at hnext
  rw [hresult, hbytes, if_pos (Int.le_refl 0), wp_pure, Post.after_apply,
    Post.round_done, List.nil_append, List.append_nil, delivered_singleton]
  exact ⟨rfl, overlay_zero, hbytes, hnext.symm⟩

/-- Over a connection it is the lossless transport: its answer is that of `Wire.recv`, however the
bytes are cut. -/
theorem wp_tcpRecvBlock_wire {β : Type} {input : σ → Bytes} (hc : Connected env s input)
    (hmax : len.toNat < 2 ^ (W - 1)) {fuel : ℕ} (hfuel : len.toNat < fuel) (x : Wire β)
    (hx : x.input = input w) :
    wp env (tcpRecvBlock fuel s mem len flags) (fun o m' w' t => o = .ret (x.recv len.toNat).ret ∧
      m' = storeAt m mem (x.recv len.toNat).data ∧ delivered t = (x.recv len.toNat).data ∧
      input w' = x.input.drop (x.recv len.toNat).data.length) m w := by
  rcases Nat.eq_zero_or_pos len.toNat with hzero | hlen
  · refine wp_mono env ?_ (wp_tcpRecvBlock_zero hc hzero (Nat.zero_lt_of_lt hfuel))
    rintro o m' w' t ⟨rfl, rfl, ht, hinput⟩
    have hdata : (x.recv len.toNat).data = [] := by
      rw [hzero, recv_data_of_le x (Nat.zero_le _), List.take_zero]
    have hret : (x.recv len.toNat).ret = 0 := by rw [hzero, recv_ret_of_le x (Nat.zero_le _)]; rfl
    rw [hdata, hret]
    refine ⟨rfl, overlay_zero.symm, ht, ?_⟩
    rw [hinput, ← hx]
    rfl
  refine wp_mono env ?_ (wp_tcpRecvBlock (Delivers input w) (fun _ _ _ hk => hc.delivers hk) hlen
    hmax hfuel ⟨rfl, fun t₁ e heq =>
    absurd heq.symm (List.append_ne_nil_of_right_ne_nil t₁ (List.cons_ne_nil e []))⟩)
  rintro o m' w' t ⟨hgathers, hinput, hlast⟩
  rw [← hx] at hinput
  rw [hgathers.stored]
  rcases hgathers.ends with ⟨rfl, -, hall⟩ | ⟨t₁, e, rfl, -, hlt, hfail, rfl⟩
  · have hle : len.toNat ≤ x.input.length := by
      rw [hinput, List.length_append, hall]
      exact Nat.le_add_right _ _
    have hdata : (x.recv len.toNat).data = delivered t := by
      rw [recv_data_of_le x hle, hinput, List.take_left' hall]
    rw [recv_ret_of_le x hle, hdata]
    refine ⟨rfl, rfl, rfl, ?_⟩
    rw [hinput, List.drop_left]
  · obtain ⟨hcount, hend⟩ := hlast t₁ e rfl
    rw [hend hfail, List.append_nil] at hinput
    have hshort : x.input.length < len.toNat := by
      rw [hinput, delivered_append, delivered_singleton, bytes_of_le hfail, List.append_nil]
      exact hlt
    rw [recv_ret_of_lt x hshort, recv_data_of_lt x hshort, ← hinput, List.drop_length, hend hfail]
    exact ⟨congrArg Outcome.ret (Int.le_antisymm hfail hcount), rfl, rfl, rfl⟩

end Server

end LwNBD.Tcp
