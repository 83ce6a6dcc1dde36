import LwNBD.Plugins.File
import Mathlib.Algebra.Order.BigOperators.Group.Finset

/-!
# Transfers that stall

A call of `pread` or `pwrite` may transfer nothing, and may go on doing so. `file_pread` takes that
for the end of the file and fails; `file_pwrite` asks again.

## The model

* `scheduled` — an operating system that transfers as a schedule says, one entry a call, and never
  more than it is asked for.
* `EndsWell` — what is expected of a transfer.
* `moved`, `Over` — what a schedule has transferred before an entry, and that the transfer is over
  there.

## What is proved

* `filePread_endsWell` — `file_pread` always does as expected.
* `transfers_end_iff` — when both do.
-/

namespace LwNBD.FilePlugin

open Resumption

/-- The operating system transfers as two schedules say, one for `pread` and one for `pwrite`.
`none` is a call that fails. The state counts the calls. -/
def scheduled (preads : ℕ → Option Bytes) (pwrites : ℕ → Option ℕ) : Env FileCall FileResp ℕ :=
  fun n e => match e with
  | .openFile .. | .closeFile _ | .fdatasync _ => ((0 : ℤ), n)
  | .fstat _ => (some 0, n)
  | .pread _ count _ => ((preads n).map (List.take count), n + 1)
  | .pwrite _ data _ => ((pwrites n).map (min data.length), n + 1)

/-- The transfer returned, and a call that made no progress was its last and made it fail. -/
def Ended : Post FileMem FileCall FileResp ℕ ℤ := fun o _ _ t => ∃ r, o = .ret r ∧
  ∀ t₁ e t₂, t = t₁ ++ e :: t₂ → transferred e = some 0 → t₂ = [] ∧ r = -1

/-- What is expected of a transfer: it ends, and a call that makes no progress is its last and makes
it fail. -/
def EndsWell (env : Env FileCall FileResp ℕ) (m : FileMem) (transfer : ℕ → FileProg ℤ) : Prop :=
  ∃ fuel, wp env (transfer fuel) Ended m 0

/-- What a schedule has transferred before entry `n`, where a call that failed transferred
nothing. -/
def moved (pwrites : ℕ → Option ℕ) (n : ℕ) : ℕ := ∑ k ∈ Finset.range n, (pwrites k).getD 0

/-- The transfer is over before entry `n`: it is complete, or a call has failed. -/
def Over (pwrites : ℕ → Option ℕ) (count : UInt32) (n : ℕ) : Prop :=
  count.toNat ≤ moved pwrites n ∨ ∃ k < n, pwrites k = none

section Stalls

variable {preads : ℕ → Option Bytes} {pwrites : ℕ → Option ℕ} {m : FileMem} {h : FileIdx}
  {x : Transfer} {n : ℕ}

theorem moved_succ : moved pwrites (n + 1) = moved pwrites n + (pwrites n).getD 0 :=
  Finset.sum_range_succ _ n

theorem moved_mono {n' : ℕ} (h : n ≤ n') : moved pwrites n ≤ moved pwrites n' :=
  Finset.sum_le_sum_of_subset (Finset.range_mono h)

theorem wp_sysPread_scheduled :
    wp (scheduled preads pwrites) (sysPread h x) (fun o _ _ t => ∃ e, t = [e] ∧
      o = .ret (transferred e) ∧ ∀ r, transferred e = some r → r ≤ x.count.toNat) m n := by
  unfold sysPread
  rw [wp_bind, wp_read, Post.seq_ret, wp_bind, wp_perform, Post.seq_ret]
  rw [scheduled]
  cases hr : preads n with
  | none => exact ⟨_, rfl, rfl, nofun⟩
  | some data =>
    rw [Option.map_some]
    dsimp only
    rw [wp_bind, wp_modify, Post.seq_ret, wp_pure]
    refine ⟨_, rfl, rfl, ?_⟩
    rintro r ⟨⟩
    exact List.length_take_le _ _

theorem wp_sysPwrite_scheduled :
    wp (scheduled preads pwrites) (sysPwrite h x) (fun o _ n' t => n' = n + 1 ∧ ∃ e, t = [e] ∧
      o = .ret (transferred e) ∧ transferred e = (pwrites n).map (min x.count.toNat)) m n := by
  unfold sysPwrite
  rw [wp_bind, wp_read, Post.seq_ret, wp_perform]
  refine ⟨rfl, _, rfl, rfl, ?_⟩
  simp [scheduled, transferred, stretch]

/-- After calls that made progress only the last can make none. -/
theorem nil_of_split {t t₁ t₂ : List (Event FileCall FileResp)} {e₀ e : Event FileCall FileResp}
    (ht : ∀ e ∈ t, transferred e ≠ some 0) (hsplit : t ++ [e₀] = t₁ ++ e :: t₂)
    (he : transferred e = some 0) : t₂ = [] := by
  rcases List.eq_nil_or_concat' t₂ with rfl | ⟨t₃, e', rfl⟩
  · rfl
  · rw [← List.cons_append, ← List.append_assoc] at hsplit
    obtain ⟨rfl, -⟩ := List.append_inj' hsplit rfl
    exact absurd he (ht e (by simp))

/-- `file_pread` does as expected: every round lowers `count`, or is the last. -/
theorem filePread_endsWell (preads : ℕ → Option Bytes) (pwrites : ℕ → Option ℕ) (m : FileMem)
    (h : FileIdx) (buf : ℕ) (count : UInt32) (offset : UInt64) (flags : UInt32) :
    EndsWell (scheduled preads pwrites) m fun fuel => filePread fuel h buf count offset flags := by
  refine ⟨count.toNat + 1, ?_⟩
  show wp _ (Prog.loop _ (preadRound h) _) Ended m 0
  rw [← Post.after_nil Ended]
  refine wp_loop_total _ (fun _ _ _ t => ∀ e ∈ t, transferred e ≠ some 0)
    (fun x _ _ => x.count.toNat) ?_ _ _ m 0 [] (Nat.lt_succ_self _) nofun
  intro x m' n t ht
  refine wp_preadRound (fun _ => ?_) (fun _ => wp_sysPread_scheduled) ?_ ?_ ?_
  · rw [Post.round_done, List.append_nil]
    refine ⟨0, rfl, fun t₁ e t₂ hsplit he => absurd he (ht e ?_)⟩
    simp [hsplit]
  · rintro r m'' n' t' - - ⟨e₀, rfl, -, -⟩
    exact ⟨-1, rfl, fun t₁ e t₂ hsplit he => ⟨nil_of_split ht hsplit he, rfl⟩⟩
  · rintro r m'' n' t' hzero hr ⟨e₀, rfl, heq, hle⟩
    have he₀ : transferred e₀ = some r := (Outcome.ret.inj heq).symm
    have hpos : 0 < x.count.toNat := Nat.pos_of_ne_zero fun h0 => hzero (UInt32.toNat_inj.mp h0)
    rw [Post.round_next]
    refine ⟨?_, ?_⟩
    · intro e he
      rcases List.mem_append.mp he with he | he
      · exact ht e he
      · rw [List.mem_singleton.mp he, he₀]
        exact fun h0 => hr (Option.some.inj h0)
    · rw [Transfer.advance_count (hle r he₀)]
      omega
  · rintro e m'' n' t' - ⟨e₀, -, heq, -⟩
    cases heq

/-- A round of `file_pwrite`: there is nothing left, the call fails, or `count` is lowered by what
it transferred. -/
theorem wp_pwriteRound_scheduled {Q : Post FileMem FileCall FileResp ℕ (Ctl Transfer ℤ)}
    (hdone : x.count = 0 → Q (.ret (.done 0)) m n [])
    (hfail : ∀ m' e, pwrites n = none → transferred e = none → Q (.ret (.done (-1))) m' (n + 1) [e])
    (hnext : ∀ m' e r, x.count ≠ 0 → pwrites n = some r →
      transferred e = some (min x.count.toNat r) →
      Q (.ret (.next (x.advance (min x.count.toNat r)))) m' (n + 1) [e]) :
    wp (scheduled preads pwrites) (pwriteRound h x) Q m n := by
  refine wp_pwriteRound hdone (fun _ => wp_sysPwrite_scheduled) ?_ ?_ ?_
  · rintro m' n' t - ⟨rfl, e, rfl, heq, he⟩
    have hnone : transferred e = none := (Outcome.ret.inj heq).symm
    exact hfail m' e (Option.map_eq_none_iff.mp (he.symm.trans hnone)) hnone
  · rintro r m' n' t hzero ⟨rfl, e, rfl, heq, he⟩
    have hsome : transferred e = some r := (Outcome.ret.inj heq).symm
    obtain ⟨r', hn, rfl⟩ := Option.map_eq_some_iff.mp (he.symm.trans hsome)
    exact hnext m' e r' hzero hn hsome
  · rintro e m' n' t - ⟨-, e₀, -, heq, -⟩
    cases heq

theorem advance_moved {count r : ℕ} (hcount : x.count.toNat = count - moved pwrites n)
    (hn : pwrites n = some r) :
    (x.advance (min x.count.toNat r)).count.toNat = count - moved pwrites (n + 1) := by
  have hsucc : moved pwrites (n + 1) = moved pwrites n + r := by
    rw [moved_succ, hn, Option.getD_some]
  rw [Transfer.advance_count (Nat.min_le_left _ _)]
  omega

/-- `file_pwrite` does as expected if every entry that it comes to makes progress. -/
theorem filePwrite_endsWell {count : UInt32}
    (hprogress : ∀ n, pwrites n = some 0 → Over pwrites count n) (m : FileMem) (h : FileIdx)
    (buf : ℕ) (offset : UInt64) (flags : UInt32) :
    EndsWell (scheduled preads pwrites) m fun fuel => filePwrite fuel h buf count offset flags := by
  refine ⟨count.toNat + 1, ?_⟩
  show wp _ (Prog.loop _ (pwriteRound h) _) Ended m 0
  rw [← Post.after_nil Ended]
  refine wp_loop_total _ (fun x _ n t => x.count.toNat = count.toNat - moved pwrites n ∧
      (∀ k < n, pwrites k ≠ none) ∧ ∀ e ∈ t, transferred e ≠ some 0) (fun x _ _ => x.count.toNat) ?_
      _ _ m 0 [] (Nat.lt_succ_self _)
    ⟨rfl, fun k hk => absurd hk (Nat.not_lt_zero k), List.forall_mem_nil _⟩
  rintro x m' n t ⟨hcount, hnone, ht⟩
  refine wp_pwriteRound_scheduled (fun hzero => ?_) (fun m'' e₀ hn he₀ => ?_) fun m'' e₀
    r hzero hn he₀ => ?_
  · rw [Post.round_done, List.append_nil]
    refine ⟨0, rfl, fun t₁ e t₂ hsplit he => absurd he (ht e ?_)⟩
    simp [hsplit]
  · exact ⟨-1, rfl, fun t₁ e t₂ hsplit he => ⟨nil_of_split ht hsplit he, rfl⟩⟩
  · have hpos : 0 < x.count.toNat := Nat.pos_of_ne_zero fun h0 => hzero (UInt32.toNat_inj.mp h0)
    have hr : r ≠ 0 := by
      rintro rfl
      rcases hprogress n hn with hover | ⟨k, hk, hover⟩
      · omega
      · exact hnone k hk hover
    rw [Post.round_next]
    refine ⟨⟨advance_moved hcount hn, fun k hk => ?_, fun e he => ?_⟩, ?_⟩
    · rcases Nat.lt_succ_iff_lt_or_eq.mp hk with hk | rfl
      · exact hnone k hk
      · rw [hn]
        exact Option.some_ne_none r
    · rcases List.mem_append.mp he with he | he
      · exact ht e he
      · rw [List.mem_singleton.mp he, he₀]
        intro h0
        have := Option.some.inj h0
        omega
    · rw [Transfer.advance_count (Nat.min_le_left _ _)]
      omega

/-- A transfer that is over, and was not at an entry, has come past that entry. -/
theorem lt_of_over {count : UInt32} {stall : ℕ} (hover : ¬ Over pwrites count stall)
    (h : count.toNat ≤ moved pwrites n ∨ n ≠ stall ∧ pwrites n = none) : stall < n := by
  by_contra hle
  rcases h with hcount | ⟨hne, hnone⟩
  · exact hover (.inl (Nat.le_trans hcount (moved_mono (Nat.not_lt.mp hle))))
  · exact hover (.inr ⟨n, Nat.lt_of_le_of_ne (Nat.not_lt.mp hle) hne, hnone⟩)

/-- A `pwrite` that makes no progress is asked again, so the transfer does not do as expected. -/
theorem filePwrite_not_endsWell {count : UInt32} {stall : ℕ} (hstall : pwrites stall = some 0)
    (hover : ¬ Over pwrites count stall) (m : FileMem) (h : FileIdx) (buf : ℕ)
    (offset : UInt64) (flags : UInt32) : ¬ EndsWell (scheduled preads pwrites) m fun fuel =>
    filePwrite fuel h buf count offset flags := by
  rintro ⟨fuel, hended⟩
  refine (?_ : wp (scheduled preads pwrites) (filePwrite fuel h buf count offset flags)
    (fun o m' n t => ¬ Ended o m' n t) m 0) hended
  rw [filePwrite, ← Post.after_nil fun o m' n t => ¬ Ended o m' n t]
  refine wp_loop _ (fun x _ n t => x.count.toNat = count.toNat - moved pwrites n ∧
      (stall < n → ∃ t₁ e t₂, t = t₁ ++ e :: t₂ ∧ transferred e = some 0)) ?_ ?_ fuel _ m 0 []
    ⟨rfl, fun hlt => absurd hlt (Nat.not_lt_zero stall)⟩
  · rintro x m' n t - ⟨r, hr, -⟩
    cases hr
  rintro x m' n t ⟨hcount, hstalled⟩
  refine wp_pwriteRound_scheduled (fun hzero => ?_) (fun m'' e₀ hn he₀ => ?_) fun m'' e₀
    r hzero hn he₀ => ?_
  · rw [Post.round_done, List.append_nil]
    rintro ⟨r, ⟨⟩, hlast⟩
    rw [hzero] at hcount
    obtain ⟨t₁, e, t₂, hsplit, he⟩ :=
      hstalled (lt_of_over hover (.inl (Nat.sub_eq_zero_iff_le.mp hcount.symm)))
    exact absurd (hlast t₁ e t₂ hsplit he).2 (by decide)
  · rw [Post.round_done]
    rintro ⟨r, ⟨⟩, hlast⟩
    have hne : n ≠ stall := by
      rintro rfl
      exact absurd (hn.symm.trans hstall) (Option.some_ne_none 0).symm
    obtain ⟨t₁, e, t₂, rfl, he⟩ := hstalled (lt_of_over hover (.inr ⟨hne, hn⟩))
    have hnil := (hlast t₁ e (t₂ ++ [e₀]) (by simp) he).1
    exact absurd hnil (by simp)
  · rw [Post.round_next]
    refine ⟨advance_moved hcount hn, fun hlt => ?_⟩
    rcases Nat.lt_succ_iff_lt_or_eq.mp hlt with hlt | rfl
    · obtain ⟨t₁, e, t₂, rfl, he⟩ := hstalled hlt
      exact ⟨t₁, e, t₂ ++ [e₀], by simp, he⟩
    · refine ⟨t, e₀, [], rfl, ?_⟩
      cases hn.symm.trans hstall
      rw [he₀, Nat.min_zero]

/-- **When both loops do as expected**: they end, and fail at a call that makes no progress, if and
only if no entry of the schedule of `pwrite` that comes before the transfer is complete, or a call
has failed, transfers nothing. -/
theorem transfers_end_iff (preads : ℕ → Option Bytes) (pwrites : ℕ → Option ℕ) (m : FileMem)
    (h : FileIdx) (buf : ℕ) (count : UInt32) (offset : UInt64) (flags : UInt32) :
    (EndsWell (scheduled preads pwrites) m (fun fuel => filePread fuel h buf count offset flags) ∧
      EndsWell (scheduled preads pwrites) m
      (fun fuel => filePwrite fuel h buf count offset flags)) ↔
    ∀ n, pwrites n = some 0 → Over pwrites count n := by
  constructor
  · rintro ⟨-, hpwrite⟩ n hn
    by_contra hover
    exact filePwrite_not_endsWell hn hover m h buf offset flags hpwrite
  · intro hprogress
    exact ⟨filePread_endsWell preads pwrites m h buf count offset flags,
      filePwrite_endsWell hprogress m h buf offset flags⟩

end Stalls

namespace Sample

/-- A schedule that never transfers anything. -/
def stalling : ℕ → Option ℕ := fun _ => some 0

/-- **`file_pwrite` of one byte does not end** when `pwrite` never writes any. -/
theorem transfer_stalls : ¬ EndsWell (scheduled (fun _ => none) stalling) opened
    fun fuel => filePwrite fuel first 0 1 0 0 := by
  refine filePwrite_not_endsWell (show stalling 0 = some 0 from rfl) ?_ opened first 0 0 0
  rintro (hcount | ⟨k, hk, -⟩)
  · exact absurd hcount (by decide)
  · exact Nat.not_lt_zero k hk

end Sample

end LwNBD.FilePlugin
