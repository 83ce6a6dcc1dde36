import LwNBD.Data.Runs
import LwNBD.Data.Swaps
import LwNBD.Xinetd.Descriptors

/-!
# The streams of the service daemon

`stdout` and `stderr` are the whole daemon's. A thread that runs a server saves both, puts its own
streams in their place, and puts back what it saved when the server has ended: six assignments,
without a lock. So with several clients at once a thread may put back a stream of a client who has
left before, which is closed.

## The model

* `Pc.old` — what a thread remembers, to put it back; `Pc.phase` — how far it is.
* `Daemon.InOrder` — `stdout` and `stderr` are those of threads that have not put back what was
  there, or as at the start.
* `Daemon.Yields` — a thread that puts back what was there is one whose stream no other one
  remembers.

## What is proved

* `next_streamed` — what a thread does to `stdout`, and to `stderr`.
* `Matches.run` — the daemon does with each of them what `Swaps` does with a variable.
* `in_order_iff` — `stdout` and `stderr` are in order all the time exactly if the threads yield.
-/

namespace LwNBD.Xinetd

/-! ### Who puts streams in place -/

/-- What a thread remembers of `stdout`, or of `stderr`, to put it back. -/
def Pc.old : Std → Pc → Option Stream
  | .out, .saveErr _ _ oldStdout | .out, .putOut _ _ oldStdout _ => some oldStdout
  | .out, .putErr _ _ oldStdout _ | .out, .running _ _ oldStdout _ => some oldStdout
  | .err, .putOut _ _ _ oldStderr | .err, .putErr _ _ _ oldStderr => some oldStderr
  | .err, .running _ _ _ oldStderr | .err, .restoreErr _ _ oldStderr => some oldStderr
  | _, _ => none

/-- How far a thread is with `stdout`, or with `stderr`. -/
def Pc.phase : Std → Pc → Swaps.Phase
  | .out, .saveErr .. | .out, .putOut .. | .err, .putOut .. | .err, .putErr .. => .saved
  | .out, .putErr .. | .out, .running .. | .err, .running .. | .err, .restoreErr .. => .inside
  | .out, .restoreErr .. => .after
  | _, .fcloseOut .. | _, .fcloseErr .. | _, .close | _, .returned true => .after
  | _, _ => .before

/-- What a move is for `stdout`, or for `stderr`. -/
def Move.swap? (v : Std) : Move → Option (Swaps.Ev ℕ)
  | .act k (.save u) => if u = v then some (.save k) else none
  | .act k (.put u) => if u = v then some (.put k) else none
  | .act k (.restore u) => if u = v then some (.restore k) else none
  | _ => none

/-- What is done with `stdout`, or with `stderr`, one after the other. -/
def swaps (v : Std) (ms : List Move) : List (Swaps.Ev ℕ) := ms.filterMap (Move.swap? v)

/-- `stdout` and `stderr` are in order: as at the start, or those of a thread that has put its
stream there and has not yet put back what it saved. -/
def Daemon.InOrder (d : Daemon) : Prop :=
  ∀ v k, d.std v = some k → ∃ t, d.threads[k]? = some t ∧ t.pc.phase v = .inside

/-- A thread yields: if it puts back what it saved, no other one remembers its stream. -/
def Daemon.Yields (d : Daemon) : Move → Prop
  | .act i (.restore v) => ∀ t ∈ d.threads, t.pc.old v ≠ some (some i)
  | _ => True

instance (d : Daemon) (m : Move) : Decidable (d.Yields m) :=
  match m with
  | .act i (.restore v) => inferInstanceAs (Decidable (∀ t ∈ d.threads, t.pc.old v ≠ some (some i)))
  | .accept .. => isTrue trivial
  | .act _ .lookup | .act _ (.dup _) | .act _ (.fdopen _) | .act _ (.save _) | .act _ (.put _) =>
    isTrue trivial
  | .act _ .giveUp | .act _ .fclose | .act _ .close | .act _ .closeAgain => isTrue trivial

section Streams

variable {services : List Service} {servers : List Server} {d d' d₁ : Daemon} {t : ServiceThread}
  {v : Std} {m : Move} {ms : List Move} {i k fd : ℕ} {a : Act} {pc : Pc}
  {e : Effect} {s : Swaps.St ℕ}

theorem open_phase (v : Std) (pc : Pc) : (pc.phase v).open = (pc.old v).isSome := by
  cases v <;> cases pc <;> first | rfl | rename_i ran; cases ran <;> rfl

/-- What becomes of `stdout`, or of `stderr`. -/
def Effect.std (v : Std) (k : ℕ) (old : Stream) : Effect → Stream
  | .put u => if u = v then some k else old
  | .restore u s => if u = v then s else old
  | _ => old

theorem apply_std (v : Std) (h : d.apply k fd e = some d₁) : d₁.std v = e.std v k (d.std v) := by
  cases e with
  | opens f =>
    rw [Daemon.apply] at h
    split at h <;> cases h
    rfl
  | nothing | closes =>
    cases h
    rfl
  | put u | restore u =>
    cases h
    cases u <;> cases v <;> rfl

/-- What a thread does to `stdout`, or to `stderr`. -/
inductive Streamed (v : Std) (cell : Stream) : Pc → Act → Pc → Effect → Prop where
  /-- It saves what is there. -/
  | save {pc pc' : Pc} : pc.phase v = .before → pc'.phase v = .saved → pc'.old v = some cell →
    Streamed v cell pc (.save v) pc' .nothing
  /-- It puts its stream there. -/
  | put {pc pc' : Pc} : pc.phase v = .saved → pc'.phase v = .inside → pc'.old v = pc.old v →
    Streamed v cell pc (.put v) pc' (.put v)
  /-- It puts back what it remembers. -/
  | restore {pc pc' : Pc} {old : Stream} : pc.phase v = .inside → pc.old v = some old →
      pc'.phase v = .after →
    Streamed v cell pc (.restore v) pc' (.restore v old)
  /-- Nothing. -/
  | other {pc pc' : Pc} {a : Act} {e : Effect} : pc'.phase v = pc.phase v → pc'.old v = pc.old v →
    (∀ k, (Move.act k a).swap? v = none) → (∀ k old, e.std v k old = old) →
    Streamed v cell pc a pc' e

theorem next_streamed (v : Std) (h : t.next servers d.stdout d.stderr a = some (pc, e)) :
    Streamed v (d.std v) t.pc a pc e := by
  unfold ServiceThread.next at h
  split at h <;> rename_i hpc <;> cases h <;> rw [hpc]
  case h_1 => cases v <;> split <;> exact .other rfl rfl (fun _ => rfl) fun _ _ => rfl
  case h_8 => cases v with
    | out => exact .save rfl rfl rfl
    | err => exact .other rfl rfl (fun _ => rfl) fun _ _ => rfl
  case h_11 => cases v with
    | out => exact .other rfl rfl (fun _ => rfl) fun _ _ => rfl
    | err => exact .save rfl rfl rfl
  case h_12 => cases v with
    | out => exact .put rfl rfl rfl
    | err => exact .other rfl rfl (fun _ => rfl) fun _ _ => rfl
  case h_13 => cases v with
    | out => exact .other rfl rfl (fun _ => rfl) fun _ _ => rfl
    | err => exact .put rfl rfl rfl
  case h_14 => cases v with
    | out => exact .restore rfl rfl rfl
    | err => exact .other rfl rfl (fun _ => rfl) fun _ _ => rfl
  case h_15 => cases v with
    | out => exact .other rfl rfl (fun _ => rfl) fun _ _ => rfl
    | err => exact .restore rfl rfl rfl
  all_goals cases v <;> exact .other rfl rfl (fun _ => rfl) fun _ _ => rfl

/-! ### The daemon and the variable -/

/-- The daemon is as the variable is, for `stdout` or for `stderr`. -/
structure Matches (v : Std) (d : Daemon) (s : Swaps.St ℕ) : Prop where
  /-- The variable. -/
  cell : d.std v = s.cell
  /-- Where the threads are. -/
  phase : ∀ (k : ℕ) (t : ServiceThread), d.threads[k]? = some t → s.phase k = t.pc.phase v
  /-- Those that are yet to come. -/
  fresh : ∀ k ≥ d.threads.length, s.phase k = .before
  /-- What they remember. -/
  saved : ∀ (k : ℕ) (t : ServiceThread), d.threads[k]? = some t →
    ∀ old ∈ t.pc.old v, s.saved k = old

theorem Daemon.Starts.matches (v : Std) (h : d.Starts) : Matches v d .start where
  cell := by
    cases v
    · exact h.streams.1
    · exact h.streams.2
  phase k t ht := by
    rw [h.threads] at ht
    cases ht
  fresh _ _ := rfl
  saved k t ht := by
    rw [h.threads] at ht
    cases ht

/-- The variable names nobody, or a thread that is inside. -/
theorem Matches.sound_iff (h : Matches v d s) :
    (∀ k, d.std v = some k → ∃ t, d.threads[k]? = some t ∧ t.pc.phase v = .inside) ↔ s.Sound := by
  unfold Swaps.St.Sound
  rw [h.cell]
  refine forall_congr' fun k => imp_congr_right fun _ => ⟨?_, fun hinside => ?_⟩
  · rintro ⟨t, ht, hphase⟩
    rw [h.phase k t ht, hphase]
  · cases ht : d.threads[k]? with
    | none =>
      rw [h.fresh k (List.getElem?_eq_none_iff.mp ht)] at hinside
      cases hinside
    | some t =>
      rw [h.phase k t ht] at hinside
      exact ⟨t, rfl, hinside⟩

theorem Matches.remembers_iff (h : Matches v d s) :
    s.Remembers k i ↔ ∃ t, d.threads[k]? = some t ∧ t.pc.old v = some (some i) := by
  constructor
  · rintro ⟨hsaved, hopen⟩
    cases ht : d.threads[k]? with
    | none =>
      rw [h.fresh k (List.getElem?_eq_none_iff.mp ht)] at hopen
      cases hopen
    | some t =>
      rw [h.phase k t ht, open_phase] at hopen
      obtain ⟨old, hold⟩ := Option.isSome_iff_exists.mp hopen
      refine ⟨t, rfl, ?_⟩
      rw [hold, ← h.saved k t ht old hold, hsaved]
  · rintro ⟨t, ht, hold⟩
    refine ⟨h.saved k t ht _ hold, ?_⟩
    rw [h.phase k t ht, open_phase, hold]
    rfl

theorem Matches.over (h : Matches v d s) (hquiet : d.Quiet) : s.Over := by
  intro k
  cases ht : d.threads[k]? with
  | none =>
    rw [h.fresh k (List.getElem?_eq_none_iff.mp ht)]
    rfl
  | some t =>
    rw [h.phase k t ht, open_phase]
    obtain hpc | ⟨ran, hpc⟩ := hquiet.ended ht <;> rw [hpc] <;> cases v <;> rfl

theorem Matches.accept {i : ℕ} {created : Bool} (h : Matches v d s)
    (hstep : d.step services servers (.accept i fd created) = some d') : Matches v d' s := by
  obtain ⟨srv, -, -, rfl⟩ := step_accept hstep
  have hlen : (d.accepted srv.name fd created).threads.length = d.threads.length + 1 :=
    List.length_append
  refine ⟨?_, fun k t ht => ?_, fun k hk => h.fresh k (by omega), fun k t ht old hold => ?_⟩
  · rw [← h.cell]
    cases v <;> rfl
  · obtain ht | ⟨rfl, rfl⟩ := accepted_threads ht
    · exact h.phase k t ht
    · rw [h.fresh _ (Nat.le_refl _)]
      cases created <;> cases v <;> rfl
  · obtain ht | ⟨rfl, rfl⟩ := accepted_threads ht
    · exact h.saved k t ht old hold
    · cases created <;> cases v <;> cases hold

/-- A thread goes on, and the others stay where they are. -/
theorem Matches.goto (h : Matches v d s) {s' : Swaps.St ℕ} (ht : d.threads[k]? = some t)
    (hthreads : d₁.threads = d.threads) (hcell : d₁.std v = s'.cell)
    (hphase : s'.phase k = pc.phase v) (hphases : ∀ j ≠ k, s'.phase j = s.phase j)
    (hsaveds : ∀ j ≠ k, s'.saved j = s.saved j) (hsaved : ∀ old ∈ pc.old v, s'.saved k = old) :
    Matches v (d₁.goto k pc) s' := by
  have hk : k < d.threads.length := (List.getElem?_eq_some_iff.mp ht).1
  have hlen : (d₁.goto k pc).threads.length = d.threads.length := by simp [Daemon.goto, hthreads]
  have hself : (d₁.goto k pc).threads[k]? = some { t with pc := pc } :=
    goto_self (by rw [hthreads, ht])
  have hne {j : ℕ} (hj : j ≠ k) : (d₁.goto k pc).threads[j]? = d.threads[j]? := by
    rw [goto_ne hj, hthreads]
  refine ⟨?_, fun j t' ht' => ?_, fun j hj => ?_, fun j t' ht' => ?_⟩
  · rw [← hcell]
    cases v <;> rfl
  · by_cases hj : j = k
    · subst hj
      rw [hself] at ht'
      cases ht'
      exact hphase
    · rw [hphases j hj]
      exact h.phase j t' ((hne hj).symm.trans ht')
  · rw [hlen] at hj
    rw [hphases j (by omega)]
    exact h.fresh j hj
  · by_cases hj : j = k
    · subst hj
      rw [hself] at ht'
      cases ht'
      exact hsaved
    · rw [hsaveds j hj]
      exact h.saved j t' ((hne hj).symm.trans ht')

/-- A step of the daemon is a step of the variable, or none. -/
theorem Matches.step (h : Matches v d s) (hstep : d.step services servers m = some d') :
    ∃ s', Swaps.run s (m.swap? v).toList = some s' ∧ Matches v d' s' := by
  cases m with
  | accept i fd created => exact ⟨s, rfl, h.accept hstep⟩
  | act k a =>
    obtain ⟨t, pc, e, d₁, ht, hnext, happly, rfl⟩ := step_act hstep
    have hthreads := apply_threads happly
    have hstd := apply_std v happly
    have hstreamed := next_streamed v hnext
    have hphase := h.phase k t ht
    have hsaved := h.saved k t ht
    generalize t.pc = pc₀ at hstreamed hphase hsaved
    cases hstreamed with
    | save hbefore hafter hold =>
      have hswap : (Move.act k (.save v)).swap? v = some (.save k) := if_pos rfl
      have hstep' : Swaps.step s (.save k) = some (s.save k) := if_pos (hphase.trans hbefore)
      refine ⟨s.save k, by rw [hswap]; exact Swaps.run_cons hstep' [],
                             h.goto ht hthreads (hstd.trans h.cell) ?_ ?_ ?_ ?_⟩
      · exact (Function.update_self ..).trans hafter.symm
      · exact fun j hj => Swaps.phase_save hj
      · exact fun j hj => Swaps.saved_save hj
      · rintro old hold'
        have hcell : (s.save k).saved k = s.cell := Function.update_self ..
        rw [hold] at hold'
        rw [hcell, ← h.cell]
        exact Option.some.inj hold'
    | put hbefore hafter hold =>
      have hswap : (Move.act k (.put v)).swap? v = some (.put k) := if_pos rfl
      have hstep' : Swaps.step s (.put k) = some (s.put k) := if_pos (hphase.trans hbefore)
      have hput : d₁.std v = (s.put k).cell := hstd.trans (if_pos rfl)
      refine ⟨s.put k, by rw [hswap]; exact Swaps.run_cons hstep' [],
                            h.goto ht hthreads hput ?_ ?_ (fun _ _ => rfl) ?_⟩
      · exact (Function.update_self ..).trans hafter.symm
      · exact fun j hj => Swaps.phase_put hj
      · rw [hold]
        exact hsaved
    | restore hinside hold hafter =>
      have hswap : (Move.act k (.restore v)).swap? v = some (.restore k) := if_pos rfl
      have hstep' : Swaps.step s (.restore k) = some (s.restore k) := if_pos (hphase.trans hinside)
      have hput : d₁.std v = (s.restore k).cell :=
        (hstd.trans (if_pos rfl)).trans (hsaved _ hold).symm
      refine ⟨s.restore k, by rw [hswap]; exact Swaps.run_cons hstep' [],
        h.goto ht hthreads hput ?_ ?_ (fun _ _ => rfl) ?_⟩
      · exact (Function.update_self ..).trans hafter.symm
      · exact fun j hj => Swaps.phase_restore hj
      · have hclosed := open_phase v pc
        rw [hafter] at hclosed
        intro old hold'
        rw [hold'] at hclosed
        cases hclosed
    | other hsame hold hswap hquiet =>
      rw [hquiet, h.cell] at hstd
      refine ⟨s, by rw [hswap]; rfl,
                      h.goto ht hthreads hstd (hphase.trans hsame.symm) (fun _ _ => rfl)
        (fun _ _ => rfl) ?_⟩
      rw [hold]
      exact hsaved

/-- The daemon does with `stdout`, and with `stderr`, what is done with the variable. -/
theorem Matches.run (h : Matches v d s) (hrun : d.run services servers ms = some d') :
    ∃ s', Swaps.run s (swaps v ms) = some s' ∧ Matches v d' s' := by
  induction ms generalizing d s with
  | nil =>
    cases hrun
    exact ⟨s, rfl, h⟩
  | cons m ms ih =>
    obtain ⟨d₁, hd₁, hrun⟩ := Option.bind_eq_some_iff.mp hrun
    obtain ⟨s₁, hs₁, h₁⟩ := h.step hd₁
    obtain ⟨s', hs', h'⟩ := ih h₁ hrun
    refine ⟨s', ?_, h'⟩
    have hswaps : swaps v (m :: ms) = (m.swap? v).toList ++ swaps v ms := by
      unfold swaps
      cases hm : m.swap? v with
      | none => exact List.filterMap_cons_none hm
      | some e => exact List.filterMap_cons_some hm
    rw [hswaps, Swaps.run_append, hs₁]
    exact hs'

/-! ### Runs -/

theorem run_prefix {p : List Move} (hp : p <+: ms) (hrun : d.run services servers ms = some d') :
    ∃ d₁, d.run services servers p = some d₁ := by
  obtain ⟨rest, rfl⟩ := hp
  rw [run_append] at hrun
  obtain ⟨d₁, hd₁, -⟩ := Option.bind_eq_some_iff.mp hrun
  exact ⟨d₁, hd₁⟩

theorem swap?_eq_restore (h : m.swap? v = some (.restore i)) : m = .act i (.restore v) := by
  cases m with
  | accept i fd created => cases h
  | act k a =>
    cases a with
    | save u | put u => cases (Option.ite_none_right_eq_some.mp h).2
    | restore u =>
      obtain ⟨rfl, heq⟩ := Option.ite_none_right_eq_some.mp h
      cases heq
      rfl
    | _ => cases h

/-- Where the variable is restored, a thread puts back what it saved. -/
theorem prefix_restore {q : List (Swaps.Ev ℕ)} (hq : q ++ [.restore i] <+: swaps v ms) :
    ∃ p, p ++ [.act i (.restore v)] <+: ms ∧ swaps v p = q := by
  obtain ⟨l, hl, heq⟩ := List.prefix_filterMap_iff.mp hq
  obtain ⟨l₁, l₂, rfl, rfl, h₂⟩ := List.filterMap_eq_append_iff.mp heq.symm
  obtain ⟨l₃, m, l₄, rfl, h₃, hm, -⟩ := List.filterMap_eq_cons_iff.mp h₂
  obtain rfl := swap?_eq_restore hm
  refine ⟨l₁ ++ l₃, List.IsPrefix.trans ⟨l₄, by simp⟩ hl, ?_⟩
  rw [swaps, List.filterMap_append, List.filterMap_eq_nil_iff.mpr h₃, List.append_nil]

/-- The threads yield exactly if the parties do. -/
theorem yields_iff {d₀ : Daemon} (hstart : d₀.Starts) (hrun : d₀.run services servers ms = some d) :
    (∀ p m d', p ++ [m] <+: ms → d₀.run services servers p = some d' → d'.Yields m) ↔
      ∀ v, Swaps.Yielding .start (swaps v ms) := by
  constructor
  · intro hyields v q i s' hq hs' k hk
    obtain ⟨p, hp, rfl⟩ := prefix_restore hq
    obtain ⟨d', hd'⟩ := run_prefix ((List.prefix_append p _).trans hp) hrun
    obtain ⟨s'', hs'', hmatches⟩ := (hstart.matches v).run hd'
    obtain rfl : s'' = s' := Option.some.inj (hs''.symm.trans hs')
    obtain ⟨t, ht, hold⟩ := hmatches.remembers_iff.mp hk
    exact hyields p _ d' hp hd' t (List.mem_of_getElem? ht) hold
  · intro hyielding p m d' hp hd'
    unfold Daemon.Yields
    split
    case h_2 => trivial
    rename_i i v
    intro t ht hold
    obtain ⟨k, ht⟩ := List.mem_iff_getElem?.mp ht
    obtain ⟨s', hs', hmatches⟩ := (hstart.matches v).run hd'
    refine hyielding v (swaps v p) i s' ?_ hs' k (hmatches.remembers_iff.mpr ⟨t, ht, hold⟩)
    have hpart := hp.filterMap (Move.swap? v)
    have hswap : (Move.act i (.restore v)).swap? v = some (.restore i) := if_pos rfl
    rwa [List.filterMap_append, List.filterMap_cons_some hswap] at hpart

/-- **`stdout` and `stderr` are in order all the time exactly if the threads yield**: when all
threads have ended, in whatever order they went on, each one has put back what it saved only after
those that had found its stream there. -/
theorem in_order_iff {d₀ : Daemon} (hstart : d₀.Starts) (hrun : d₀.run services servers ms = some d)
    (hquiet : d.Quiet) : (∀ p d', p <+: ms → d₀.run services servers p = some d' → d'.InOrder) ↔
      ∀ p m d', p ++ [m] <+: ms → d₀.run services servers p = some d' → d'.Yields m := by
  rw [yields_iff hstart hrun]
  have hsound (v : Std) : Swaps.SoundUntil .start (swaps v ms) ↔
      Swaps.Yielding .start (swaps v ms) := by
    obtain ⟨s, hs, hmatches⟩ := (hstart.matches v).run hrun
    exact Swaps.sound_iff hs (hmatches.over hquiet)
  constructor
  · intro hall v
    refine (hsound v).mp fun q s' hq hs' => ?_
    obtain ⟨p, hp, rfl⟩ := List.prefix_filterMap_iff.mp hq
    obtain ⟨d', hd'⟩ := run_prefix hp hrun
    obtain ⟨s'', hs'', hmatches⟩ := (hstart.matches v).run hd'
    obtain rfl : s'' = s' := Option.some.inj (hs''.symm.trans hs')
    exact hmatches.sound_iff.mp (hall p d' hp hd' v)
  · intro hyielding p d' hp hd' v
    obtain ⟨s', hs', hmatches⟩ := (hstart.matches v).run hd'
    exact hmatches.sound_iff.mpr ((hsound v).mpr (hyielding v) (swaps v p) s' (hp.filterMap _) hs')

end Streams

namespace Sample

/-- A client comes while the first one is served, and is served first. -/
def nested : List Move := opening 0 4 5 6 ++ opening 1 7 8 9 ++ ending 1 ++ ending 0

/-- The second one has found the streams of the first. -/
example : ∃ d ∈ daemon.run services servers (opening 0 4 5 6 ++ opening 1 7 8 9),
    ¬ d.Yields (.act 0 (.restore .out)) := by
  decide

theorem in_order_iff_nested : ∃ d ∈ daemon.run services servers nested, d.Quiet ∧
    ∀ p d', p <+: nested → daemon.run services servers p = some d' → d'.InOrder := by
  have hquiet : ∃ d ∈ daemon.run services servers nested, d.Quiet := by decide
  obtain ⟨d, hd, hquiet⟩ := hquiet
  have hall : ∀ n < nested.length, ∀ m ∈ nested[n]?,
      ∀ d ∈ daemon.run services servers (nested.take n), d.Yields m := by
    decide
  refine ⟨d, hd, hquiet, (in_order_iff starts_daemon hd hquiet).mpr fun p m d' hp hd' => ?_⟩
  obtain ⟨hlen, hget, htake⟩ := Runs.place_of_prefix hp
  exact hall p.length hlen m hget d' (htake.symm ▸ hd')

end Sample

end LwNBD.Xinetd
