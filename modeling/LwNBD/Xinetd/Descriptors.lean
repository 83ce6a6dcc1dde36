import Mathlib.Data.Nat.Find
import LwNBD.Xinetd.Threads

/-!
# The descriptors of the service daemon

A thread of the daemon has the descriptor of its connection and, while it serves it, two more that
it opens for streams. It closes all of them in the end. But if a stream fails to open, it closes the
descriptor of the connection twice, and by then the number may be another connection's. And if there
is no server for a connection, it closes nothing.

## The model

* `Pc.held` — the descriptors that a thread will close.
* `Act.opens` — what is to open opens; `Pc.failed` — a stream has failed to open.
* `ClosesOwn` — whenever a thread closes a descriptor, it is one of its own connection.
* `Daemon.Lowest` — the kernel gives the lowest number that is not in use.
* `Daemon.MayCloseForeign` — it may come to this: a thread closes a descriptor of another
  connection.

## What is proved

* `Daemon.Owned.step` — each thread has its own descriptors open, as long as none is closed twice.
* `descriptors_accounted` — as long as all streams open, a thread closes descriptors of its own
  connection only, and when all threads have ended, the connections that are still open are those
  for which there was no server.
* `foreign_close_iff` — where a stream has failed to open, and only there, a thread may come to
  close a descriptor of another connection.
-/

namespace LwNBD.Xinetd

/-! ### Descriptors -/

/-- The descriptors that a thread will close, `fd` among them. -/
def Pc.held (fd : ℕ) : Pc → List ℕ
  | .lookup | .dupOut | .close | .lost => [fd]
  | .fdopenOut f => [f, fd]
  | .dupErr out => fd :: out.toList
  | .fdopenErr out f => f :: fd :: out.toList
  | .check out err => fd :: (out.toList ++ err.toList)
  | .saveErr out err _ | .putOut out err .. | .putErr out err .. => [out, err, fd]
  | .running out err .. | .restoreErr out err _ | .fcloseOut out err => [out, err, fd]
  | .fcloseErr err => [err, fd]
  | .closeAgain | .returned _ => []

/-- A stream has failed to open, and the thread has not ended. -/
def Pc.failed : Pc → Bool
  | .dupErr none | .fdopenErr none _ | .check none _ | .check (some _) none | .closeAgain => true
  | _ => false

/-- It opens, if it is to open something. -/
def Act.opens : Act → Bool
  | .dup none | .fdopen false => false
  | _ => true

section Next

variable {servers : List Server} {stdout stderr : Stream} {t : ServiceThread} {a : Act}
  {pc : Pc} {e : Effect}

/-- What the effect on the descriptors is, given those that are held before and after. `leaked` are
open still, and will not be closed. -/
def Effect.Holds (fd : ℕ) (leaked held held' : List ℕ) : Effect → Prop
  | .opens f => List.Perm held' (f :: held) ∧ leaked = [] ∧ fd ∈ held
  | .closes f => List.Perm held (f :: (held' ++ leaked))
  | _ => List.Perm held (held' ++ leaked)

/-- What becomes of the descriptors. One is opened for what `fd` is open for. -/
def Effect.Fds (fd : ℕ) (fds fds' : ℕ → Option File) : Effect → Prop
  | .opens f => ∃ file, fds fd = some file ∧ fds f = none ∧ fds' = Function.update fds f (some file)
  | .closes f => fds' = Function.update fds f none
  | _ => fds' = fds

/-- What a thread does to its descriptors, if it has not closed `fd` yet. If its streams open, none
is leaked. -/
theorem next_held (h : t.next servers stdout stderr a = some (pc, e)) (ha : a ≠ .closeAgain) :
    ∃ leaked, (a.opens = true → t.pc.failed = false → leaked = []) ∧
      e.Holds t.fd leaked (t.pc.held t.fd) (pc.held t.fd) := by
  unfold ServiceThread.next at h
  split at h <;> rename_i hpc <;> cases h <;> rw [hpc]
  · refine ⟨[], fun _ _ => rfl, ?_⟩
    split <;> exact .refl _
  · exact ⟨[], fun _ _ => rfl, .refl _, rfl, List.mem_cons_self⟩
  · exact ⟨[], fun _ _ => rfl, .refl _⟩
  · rename_i f ok
    cases ok
    · exact ⟨[f], fun h => absurd h Bool.false_ne_true, List.Perm.swap ..⟩
    · exact ⟨[], fun _ _ => rfl, List.Perm.swap ..⟩
  · exact ⟨[], fun _ _ => rfl, .refl _, rfl, List.mem_cons_self⟩
  · rename_i out
    exact ⟨[], fun _ _ => rfl, by simp [Effect.Holds, Pc.held]⟩
  · rename_i out f ok
    cases ok
    · exact ⟨[f], fun h => absurd h Bool.false_ne_true, by
        simpa [Effect.Holds, Pc.held] using (List.perm_append_singleton f (_ :: out.toList)).symm⟩
    · exact ⟨[], fun _ _ => rfl, by
        simpa [Effect.Holds, Pc.held] using (List.perm_append_singleton f (_ :: out.toList)).symm⟩
  · exact ⟨[], fun _ _ => rfl, by
      simpa [Effect.Holds, Pc.held] using (List.perm_append_singleton t.fd [_, _]).symm⟩
  case h_9 => exact ⟨_, fun _ h => absurd h (by simp [Pc.failed]), .refl _⟩
  case h_10 => exact ⟨_, fun _ h => absurd h (by simp [Pc.failed]), .refl _⟩
  case h_19 => exact absurd rfl ha
  all_goals exact ⟨[], fun _ _ => rfl, .refl _⟩

/-- A thread that closes `fd` for the first time comes to close it again. -/
theorem next_closeAgain (h : t.next servers stdout stderr a = some (.closeAgain, e)) :
    e = .closes t.fd := by
  unfold ServiceThread.next at h
  split at h
  · split_ifs at h <;> cases h
  all_goals cases h
  · rfl
  · rfl

end Next

section Step

variable {services : List Service} {servers : List Server} {d d' d₁ : Daemon} {t : ServiceThread}
  {k j fd f : ℕ} {a : Act} {pc : Pc} {e : Effect} {leaked : List ℕ}

/-- What becomes of the descriptors. -/
theorem apply_fds (h : d.apply k fd e = some d₁) : e.Fds fd d.fds d₁.fds := by
  cases e with
  | opens f =>
    rw [Daemon.apply] at h
    cases hfile : d.fds fd with
    | none =>
      rw [hfile] at h
      cases h
    | some file =>
      cases hnone : d.fds f with
      | some _ =>
        rw [hfile, hnone] at h
        cases h
      | none =>
        rw [hfile, hnone] at h
        cases h
        exact ⟨file, hfile, hnone, rfl⟩
  | nothing | closes =>
    cases h
    rfl
  | put | restore =>
    cases h
    exact Daemon.setStd_fds ..

/-! ### Each thread has its own descriptors -/

/-- Each thread has its own descriptors open. -/
structure Daemon.Owned (d : Daemon) : Prop where
  /-- Those that it will close are open for its connection. -/
  own : ∀ (k : ℕ) (t : ServiceThread), d.threads[k]? = some t →
    ∀ f ∈ t.pc.held t.fd, d.fds f = some (.conn k)
  /-- It will close none twice. -/
  nodup : ∀ (k : ℕ) (t : ServiceThread), d.threads[k]? = some t → (t.pc.held t.fd).Nodup
  /-- Every connection has a thread. -/
  known : ∀ f k, d.fds f = some (.conn k) → k < d.threads.length
  /-- What it is about to close again is another connection's, if it is open. -/
  again : ∀ (k : ℕ) (t : ServiceThread), d.threads[k]? = some t → t.pc = .closeAgain →
    ∀ file, d.fds t.fd = some file → ∃ j, j ≠ k ∧ file = .conn j
  /-- Some descriptor is the last one in use. -/
  finite : ∃ n, ∀ f ≥ n, d.fds f = none

theorem Daemon.Starts.owned (h : d.Starts) : d.Owned where
  own k t ht := by
    rw [h.threads] at ht
    cases ht
  nodup k t ht := by
    rw [h.threads] at ht
    cases ht
  known f k hf := absurd hf (h.fds f k)
  again k t ht := by
    rw [h.threads] at ht
    cases ht
  finite := h.finite

/-- A descriptor of another thread is not touched. -/
theorem Daemon.Owned.other (h : d.Owned) (ht : d.threads[k]? = some t)
    (hholds : e.Holds t.fd leaked (t.pc.held t.fd) (pc.held t.fd)) {fds : ℕ → Option File}
    (hfds : e.Fds t.fd d.fds fds) (hj : j ≠ k) :
    fds f = some (.conn j) ↔ d.fds f = some (.conn j) := by
  cases e with
  | opens g =>
    obtain ⟨file, hfile, hnone, rfl⟩ := hfds
    have hown := h.own k t ht _ hholds.2.2
    rw [hfile] at hown
    cases hown
    by_cases hf : f = g
    · subst hf
      rw [Function.update_self, hnone]
      simp [hj.symm]
    · rw [Function.update_of_ne hf]
  | closes g =>
    have hown := h.own k t ht g (hholds.mem_iff.mpr List.mem_cons_self)
    have hfds : fds = Function.update d.fds g none := hfds
    rw [hfds]
    by_cases hf : f = g
    · subst hf
      rw [Function.update_self, hown]
      simp [hj.symm]
    · rw [Function.update_of_ne hf]
  | nothing | put | restore =>
    have hfds : fds = d.fds := hfds
    rw [hfds]

/-- What is open was so before, or is the thread's. -/
theorem Daemon.Owned.file (h : d.Owned) (ht : d.threads[k]? = some t)
    (hholds : e.Holds t.fd leaked (t.pc.held t.fd) (pc.held t.fd)) {fds : ℕ → Option File}
    (hfds : e.Fds t.fd d.fds fds) {file : File} (hfile : fds f = some file) :
    d.fds f = some file ∨ file = .conn k := by
  cases e with
  | opens g =>
    obtain ⟨file', hfile', -, rfl⟩ := hfds
    by_cases hf : f = g
    · rw [hf, Function.update_self, ← hfile', h.own k t ht _ hholds.2.2] at hfile
      cases hfile
      exact .inr rfl
    · rw [Function.update_of_ne hf] at hfile
      exact .inl hfile
  | closes g =>
    have hfds : fds = Function.update d.fds g none := hfds
    rw [hfds] at hfile
    by_cases hf : f = g
    · rw [hf, Function.update_self] at hfile
      cases hfile
    · rw [Function.update_of_ne hf] at hfile
      exact .inl hfile
  | nothing | put | restore =>
    have hfds : fds = d.fds := hfds
    exact .inl (hfds ▸ hfile)

theorem Daemon.Owned.self (h : d.Owned) (ht : d.threads[k]? = some t)
    (hholds : e.Holds t.fd leaked (t.pc.held t.fd) (pc.held t.fd)) {fds : ℕ → Option File}
    (hfds : e.Fds t.fd d.fds fds) :
    (pc.held t.fd).Nodup ∧ ∀ f ∈ pc.held t.fd, fds f = some (.conn k) := by
  have hown := h.own k t ht
  have hnodup := h.nodup k t ht
  cases e with
  | opens g =>
    obtain ⟨file, hfile, hnone, rfl⟩ := hfds
    obtain ⟨hperm, -, hfd⟩ := hholds
    have hconn := hown _ hfd
    rw [hfile] at hconn
    cases hconn
    have hg : g ∉ t.pc.held t.fd := fun hmem => by
      rw [hown g hmem] at hnone
      cases hnone
    refine ⟨hperm.nodup_iff.mpr (List.nodup_cons.mpr ⟨hg, hnodup⟩), fun f hf => ?_⟩
    obtain rfl | hf := List.mem_cons.mp (hperm.mem_iff.mp hf)
    · exact Function.update_self ..
    · have hne : f ≠ g := ne_of_mem_of_not_mem hf hg
      rw [Function.update_of_ne hne]
      exact hown f hf
  | closes g =>
    have hperm : List.Perm (t.pc.held t.fd) (g :: (pc.held t.fd ++ leaked)) := hholds
    have hfds : fds = Function.update d.fds g none := hfds
    obtain ⟨hg, hnodup⟩ := List.nodup_cons.mp (hperm.nodup_iff.mp hnodup)
    have hleft := List.sublist_append_left (pc.held t.fd) leaked
    refine ⟨hnodup.sublist hleft, fun f hf => ?_⟩
    have hne : f ≠ g := ne_of_mem_of_not_mem (hleft.subset hf) hg
    rw [hfds, Function.update_of_ne hne]
    exact hown f (hperm.mem_iff.mpr (List.mem_cons_of_mem _ (List.mem_append_left _ hf)))
  | nothing | put | restore =>
    have hperm : List.Perm (t.pc.held t.fd) (pc.held t.fd ++ leaked) := hholds
    have hfds : fds = d.fds := hfds
    refine ⟨(hperm.nodup_iff.mp hnodup).sublist (List.sublist_append_left _ leaked), fun f hf => ?_⟩
    rw [hfds]
    exact hown f (hperm.mem_iff.mpr (List.mem_append_left _ hf))

/-- Some descriptor is the last one in use, after a change. -/
theorem finite_update {fds : ℕ → Option File} (hfin : ∃ n, ∀ f ≥ n, fds f = none) (g : ℕ)
    (file : Option File) : ∃ n, ∀ f ≥ n, Function.update fds g file f = none := by
  obtain ⟨n, hn⟩ := hfin
  refine ⟨n + g + 1, fun f hf => ?_⟩
  rw [Function.update_of_ne (by omega)]
  exact hn f (by omega)

theorem Effect.Fds.finite {fds fds' : ℕ → Option File} (h : e.Fds fd fds fds')
    (hfin : ∃ n, ∀ f ≥ n, fds f = none) : ∃ n, ∀ f ≥ n, fds' f = none := by
  cases e with
  | opens g =>
    obtain ⟨file, -, -, rfl⟩ := h
    exact finite_update hfin g _
  | closes g =>
    have h : fds' = Function.update fds g none := h
    rw [h]
    exact finite_update hfin g _
  | nothing | put | restore =>
    have h : fds' = fds := h
    rwa [h]

/-- A thread goes on that does not close anything twice. -/
theorem Daemon.Owned.act (h : d.Owned) (hstep : d.step services servers (.act k a) = some d')
    (ha : a ≠ .closeAgain) :
    d'.Owned := by
  obtain ⟨t, pc, e, d₁, ht, hnext, happly, rfl⟩ := step_act hstep
  have hthreads := apply_threads happly
  have hfds := apply_fds happly
  obtain ⟨leaked, -, hholds⟩ := next_held hnext ha
  obtain ⟨hnodup, hself⟩ := h.self ht hholds hfds
  have hother {j : ℕ} (f : ℕ) (hj : j ≠ k) := h.other (f := f) ht hholds hfds hj
  have ht₁ : (d₁.goto k pc).threads[k]? = some { t with pc := pc } :=
    goto_self (by rw [hthreads, ht])
  have hk : k < d.threads.length := (List.getElem?_eq_some_iff.mp ht).1
  have hne {j : ℕ} (hj : j ≠ k) {t' : ServiceThread} (ht' : (d₁.goto k pc).threads[j]? = some t') :
      d.threads[j]? = some t' := by rwa [goto_ne hj, hthreads] at ht'
  refine ⟨fun j t' ht' f hf => ?_, fun j t' ht' => ?_, fun f j hf => ?_,
    fun j t' ht' hpc file hfile => ?_, hfds.finite h.finite⟩
  · by_cases hj : j = k
    · subst hj
      rw [ht₁] at ht'
      cases ht'
      exact hself f hf
    · exact (hother f hj).mpr (h.own j t' (hne hj ht') f hf)
  · by_cases hj : j = k
    · subst hj
      rw [ht₁] at ht'
      cases ht'
      exact hnodup
    · exact h.nodup j t' (hne hj ht')
  · have hlen : (d₁.goto k pc).threads.length = d.threads.length := by simp [Daemon.goto, hthreads]
    rw [hlen]
    by_cases hj : j = k
    · rwa [hj]
    · exact h.known f j ((hother f hj).mp hf)
  · by_cases hj : j = k
    · subst hj
      rw [ht₁] at ht'
      cases ht'
      have hpc : pc = .closeAgain := hpc
      subst hpc
      have he := next_closeAgain hnext
      subst he
      have hfds : d₁.fds = Function.update d.fds t.fd none := hfds
      have hfile : d₁.fds t.fd = some file := hfile
      rw [hfds, Function.update_self] at hfile
      cases hfile
    · obtain hfile | rfl := h.file ht hholds hfds hfile
      · exact h.again j t' (hne hj ht') hpc file hfile
      · exact ⟨k, Ne.symm hj, rfl⟩

/-- What is open for a connection was so before, or is the new one. -/
theorem accepted_fds {name : Bytes} {created : Bool} (hnone : d.fds fd = none) :
    (d.accepted name fd created).fds f = some (.conn k) ↔
      d.fds f = some (.conn k) ∨ f = fd ∧ k = d.threads.length := by
  rw [Daemon.accepted]
  dsimp only
  by_cases hf : f = fd
  · subst hf
    rw [Function.update_self, hnone]
    simp [eq_comm]
  · rw [Function.update_of_ne hf]
    simp [hf]

theorem held_new (created : Bool) : Pc.held fd (if created then .lookup else .lost) = [fd] := by
  cases created <;> rfl

/-- A connection is accepted. -/
theorem Daemon.Owned.accept (h : d.Owned) {i : ℕ} {created : Bool}
    (hstep : d.step services servers (.accept i fd created) = some d') : d'.Owned := by
  obtain ⟨s, -, hnone, rfl⟩ := step_accept hstep
  refine ⟨fun k t ht f hf => (accepted_fds hnone).mpr ?_, fun k t ht => ?_, fun f k hf => ?_,
    fun k t ht hpc file hfile => ?_, finite_update h.finite _ _⟩
  · obtain ht | ⟨rfl, rfl⟩ := accepted_threads ht
    · exact .inl (h.own k t ht f hf)
    · dsimp only at hf
      rw [held_new, List.mem_singleton] at hf
      exact .inr ⟨hf, rfl⟩
  · obtain ht | ⟨rfl, rfl⟩ := accepted_threads ht
    · exact h.nodup k t ht
    · dsimp only
      rw [held_new]
      exact List.nodup_cons.mpr ⟨List.not_mem_nil, List.nodup_nil⟩
  · have hlen : (d.accepted s.name fd created).threads.length = d.threads.length + 1 :=
      List.length_append
    rw [hlen]
    obtain hf | ⟨-, rfl⟩ := (accepted_fds hnone).mp hf
    · exact Nat.lt_succ_of_lt (h.known f k hf)
    · exact Nat.lt_succ_self _
  · obtain ht | ⟨rfl, rfl⟩ := accepted_threads ht
    · have hfile : Function.update d.fds fd (some (.conn d.threads.length)) t.fd = some file :=
        hfile
      by_cases hfd : t.fd = fd
      · rw [hfd, Function.update_self] at hfile
        cases hfile
        exact ⟨_, Nat.ne_of_gt (List.getElem?_eq_some_iff.mp ht).1, rfl⟩
      · rw [Function.update_of_ne hfd] at hfile
        exact h.again k t ht hpc file hfile
    · cases created <;> cases hpc

end Step

/-! ### Runs -/

/-- It closes a descriptor for the second time. -/
def Move.again : Move → Bool
  | .act _ .closeAgain => true
  | _ => false

/-- It opens, if it is to open something. -/
def Move.opens : Move → Bool
  | .act _ a => a.opens
  | _ => true

section Run

variable (services : List Service) (servers : List Server)

/-- The thread that goes on, and the descriptor that it closes. -/
def Daemon.closing (d : Daemon) : Move → Option (ℕ × ℕ)
  | .accept .. => none
  | .act k a =>
    d.threads[k]?.bind fun t => (t.next servers d.stdout d.stderr a).bind fun
      | (_, .closes f) => some (k, f)
      | _ => none

/-- Whenever a thread closes a descriptor, it is open for its own connection. -/
def ClosesOwn (d : Daemon) (ms : List Move) : Prop :=
  ∀ p m d', p ++ [m] <+: ms → d.run services servers p = some d' →
    ∀ k f, d'.closing servers m = some (k, f) → d'.fds f = some (.conn k)

variable {services servers} {d d' : Daemon} {m : Move} {ms : List Move} {k f : ℕ}
  {t : ServiceThread} {a : Act} {pc : Pc} {e : Effect} {stdout stderr : Stream}

theorem Daemon.Owned.step (h : d.Owned) (hm : m.again = false)
    (hstep : d.step services servers m = some d') : d'.Owned := by
  cases m with
  | accept i fd created => exact h.accept hstep
  | act k a =>
    refine h.act hstep ?_
    rintro rfl
    cases hm

/-- What is closed is one's own, unless it is closed again. -/
theorem Daemon.Owned.closes (h : d.Owned) (hm : m.again = false)
    (hc : d.closing servers m = some (k, f)) : d.fds f = some (.conn k) := by
  cases m with
  | accept i fd created => cases hc
  | act j a =>
    obtain ⟨t, ht, hc⟩ := Option.bind_eq_some_iff.mp hc
    obtain ⟨⟨pc, e⟩, hnext, hc⟩ := Option.bind_eq_some_iff.mp hc
    cases e with
    | closes g =>
      cases hc
      obtain ⟨leaked, -, hholds⟩ := next_held hnext (by rintro rfl; cases hm)
      exact h.own k t ht f (hholds.mem_iff.mpr List.mem_cons_self)
    | nothing | opens | put | restore => cases hc

/-! ### As long as all streams open -/

/-- All threads have opened their streams so far, or have ended. -/
structure Daemon.Sure (d : Daemon) : Prop extends d.Owned where
  /-- None has failed. -/
  opened : ∀ (k : ℕ) (t : ServiceThread), d.threads[k]? = some t → t.pc.failed = false

/-- No stream has ever failed to open. What is open for a connection is still to be closed, but for
a connection whose server was not found. -/
structure Daemon.Tidy (servers : List Server) (d : Daemon) : Prop extends d.Sure where
  /-- What is open will be closed. -/
  held : ∀ f k, d.fds f = some (.conn k) → ∃ t, d.threads[k]? = some t ∧ f ∈ t.pc.held t.fd
  /-- A connection is left alone if there is no thread or no server, and only then. -/
  lost : ∀ (k : ℕ) (t : ServiceThread), d.threads[k]? = some t → t.pc = .lookup ∧ t.created = true ∨
    t.pc ≠ .lookup ∧ (t.pc = .lost ↔ t.created = false ∨ getServerByName servers t.name = none)

/-- What a thread does that has opened its streams. -/
theorem next_opened (h : t.next servers stdout stderr a = some (pc, e)) (ha : a.opens = true)
    (ht : t.pc.failed = false) : a ≠ .closeAgain ∧ pc.failed = false := by
  unfold ServiceThread.next at h
  split at h <;> rename_i hpc <;> cases h <;> rw [hpc] at ht
  · refine ⟨Act.noConfusion, ?_⟩
    split <;> rfl
  · exact ⟨Act.noConfusion, rfl⟩
  · cases ha
  · rename_i ok
    cases ok
    · cases ha
    · exact ⟨Act.noConfusion, rfl⟩
  · rename_i out f
    cases out
    · cases ht
    · exact ⟨Act.noConfusion, rfl⟩
  · cases ha
  · rename_i out f ok
    cases out
    · cases ht
    · cases ok
      · cases ha
      · exact ⟨Act.noConfusion, rfl⟩
  case h_9 | h_10 | h_19 => cases ht
  all_goals exact ⟨Act.noConfusion, rfl⟩

/-- A thread is lost if it finds no server, and else goes on. -/
theorem next_lost (h : t.next servers stdout stderr a = some (pc, e)) :
    pc ≠ .lookup ∧ t.pc ≠ .lost ∧
    (t.pc = .lookup → (pc = .lost ↔ getServerByName servers t.name = none)) ∧
      (t.pc ≠ .lookup → pc ≠ .lost) := by
  unfold ServiceThread.next at h
  split at h <;> rename_i hpc <;> cases h <;> rw [hpc]
  · cases getServerByName servers t.name <;> simp
  all_goals exact ⟨Pc.noConfusion, Pc.noConfusion, Pc.noConfusion, fun _ => Pc.noConfusion⟩

theorem Daemon.Starts.tidy (h : d.Starts) : d.Tidy servers where
  toOwned := h.owned
  opened k t ht := by
    rw [h.threads] at ht
    cases ht
  held f k hf := absurd hf (h.fds f k)
  lost k t ht := by
    rw [h.threads] at ht
    cases ht

/-- What is open for a thread's connection is still to be closed. -/
theorem Daemon.Tidy.self_held (h : d.Tidy servers) (ht : d.threads[k]? = some t)
    (hholds : e.Holds t.fd [] (t.pc.held t.fd) (pc.held t.fd)) {fds : ℕ → Option File}
    (hfds : e.Fds t.fd d.fds fds) (hf : fds f = some (.conn k)) : f ∈ pc.held t.fd := by
  have hold (hf : d.fds f = some (.conn k)) : f ∈ t.pc.held t.fd := by
    obtain ⟨t', ht', hmem⟩ := h.held f k hf
    rw [ht] at ht'
    cases ht'
    exact hmem
  cases e with
  | opens g =>
    obtain ⟨file, -, -, rfl⟩ := hfds
    obtain ⟨hperm, -, -⟩ := hholds
    by_cases hg : f = g
    · exact hperm.mem_iff.mpr (hg ▸ List.mem_cons_self)
    · rw [Function.update_of_ne hg] at hf
      exact hperm.mem_iff.mpr (List.mem_cons_of_mem _ (hold hf))
  | closes g =>
    have hperm : List.Perm (t.pc.held t.fd) (g :: (pc.held t.fd ++ [])) := hholds
    have hfds : fds = Function.update d.fds g none := hfds
    rw [hfds] at hf
    rw [List.append_nil] at hperm
    by_cases hg : f = g
    · rw [hg, Function.update_self] at hf
      cases hf
    · rw [Function.update_of_ne hg] at hf
      exact (List.mem_cons.mp (hperm.mem_iff.mp (hold hf))).resolve_left hg
  | nothing | put | restore =>
    have hperm : List.Perm (t.pc.held t.fd) (pc.held t.fd ++ []) := hholds
    have hfds : fds = d.fds := hfds
    rw [List.append_nil] at hperm
    rw [hfds] at hf
    exact hperm.mem_iff.mp (hold hf)

/-- A step whose stream opens. -/
theorem Daemon.Sure.step (h : d.Sure) (hm : m.opens = true)
    (hstep : d.step services servers m = some d') : m.again = false ∧ d'.Sure := by
  cases m with
  | accept i fd created =>
    refine ⟨rfl, h.toOwned.accept hstep, fun k t ht => ?_⟩
    obtain ⟨s, -, -, rfl⟩ := step_accept hstep
    obtain ht | ⟨rfl, rfl⟩ := accepted_threads ht
    · exact h.opened k t ht
    · cases created <;> rfl
  | act k a =>
    obtain ⟨t, pc, e, d₁, ht, hnext, happly, rfl⟩ := step_act hstep
    obtain ⟨ha, hopened⟩ := next_opened hnext hm (h.opened k t ht)
    have hthreads := apply_threads happly
    refine ⟨?_, h.toOwned.act hstep ha, fun j t' ht' => ?_⟩
    · cases a with
      | closeAgain => exact absurd rfl ha
      | _ => rfl
    · by_cases hj : j = k
      · subst hj
        rw [goto_self (by rw [hthreads, ht])] at ht'
        cases ht'
        exact hopened
      · rw [goto_ne hj, hthreads] at ht'
        exact h.opened j t' ht'

theorem Daemon.Tidy.step (h : d.Tidy servers) (hm : m.opens = true)
    (hstep : d.step services servers m = some d') : d'.Tidy servers := by
  have hsure := (h.toSure.step hm hstep).2
  cases m with
  | accept i fd created =>
    obtain ⟨s, -, hnone, rfl⟩ := step_accept hstep
    refine ⟨hsure, fun f k hf => ?_, fun k t ht => ?_⟩
    · obtain hf | ⟨rfl, rfl⟩ := (accepted_fds hnone).mp hf
      · obtain ⟨t, ht, hmem⟩ := h.held f k hf
        exact ⟨t, accepted_of_threads ht, hmem⟩
      · refine ⟨_, List.getElem?_concat_length, ?_⟩
        rw [held_new]
        exact List.mem_singleton_self f
    · obtain ht | ⟨rfl, rfl⟩ := accepted_threads ht
      · exact h.lost k t ht
      · cases created
        · exact .inr ⟨Pc.noConfusion, fun _ => .inl rfl, fun _ => rfl⟩
        · exact .inl ⟨rfl, rfl⟩
  | act k a =>
    obtain ⟨t, pc, e, d₁, ht, hnext, happly, rfl⟩ := step_act hstep
    obtain ⟨ha, -⟩ := next_opened hnext hm (h.opened k t ht)
    have hthreads := apply_threads happly
    have hfds := apply_fds happly
    obtain ⟨leaked, hleaked, hholds⟩ := next_held hnext ha
    have hnil := hleaked hm (h.opened k t ht)
    subst hnil
    have ht₁ : (d₁.goto k pc).threads[k]? = some { t with pc := pc } :=
      goto_self (by rw [hthreads, ht])
    have hne {j : ℕ} (hj : j ≠ k) : (d₁.goto k pc).threads[j]? = d.threads[j]? := by
      rw [goto_ne hj, hthreads]
    refine ⟨hsure, fun f j hf => ?_, fun j t' ht' => ?_⟩
    · by_cases hj : j = k
      · subst hj
        have hmem := h.self_held ht hholds hfds hf
        exact ⟨_, ht₁, hmem⟩
      · obtain ⟨t', ht', hmem⟩ := h.held f j ((h.toOwned.other ht hholds hfds hj).mp hf)
        exact ⟨t', (hne hj).trans ht', hmem⟩
    · by_cases hj : j = k
      · subst hj
        rw [ht₁] at ht'
        cases ht'
        obtain ⟨hlookup, hlost, hfirst, hlater⟩ := next_lost hnext
        obtain ⟨hpc, hcreated⟩ | ⟨hpc, hiff⟩ := h.lost j t ht
        · exact .inr ⟨hlookup, (hfirst hpc).trans (by simp [hcreated])⟩
        · exact .inr ⟨hlookup, iff_of_false (hlater hpc) fun hnone => hlost (hiff.mpr hnone)⟩
      · exact h.lost j t' ((hne hj).symm.trans ht')

/-- As long as the streams open, what is closed is one's own. -/
theorem Daemon.Sure.closesOwn (h : d.Sure) (hms : ∀ m ∈ ms, m.opens = true)
    (hrun : d.run services servers ms = some d') : ClosesOwn services servers d ms := by
  intro p m d₁ hp hd₁ k f hc
  obtain ⟨rest, rfl⟩ := hp
  have hopens : ∀ m' ∈ p, m'.opens = true := fun m' hm' =>
    hms m' (List.mem_append_left _ (List.mem_append_left _ hm'))
  have hsure : d₁.Sure := run_keeps (fun d m d' h hm hd => (h.step hm hd).2) h hopens hd₁
  rw [List.append_assoc, run_append, hd₁, Option.bind_some,
    List.singleton_append, Daemon.run] at hrun
  obtain ⟨d₂, hd₂, -⟩ := Option.bind_eq_some_iff.mp hrun
  exact hsure.closes (hsure.step (hms m (by simp)) hd₂).1 hc

/-- **As long as all streams open**, whatever the order of what happens, a thread closes descriptors
of its own connection only. And when all threads have ended, the descriptors that are still open for
connections are those of the connections for which there is no server, or no thread. -/
theorem descriptors_accounted {d₀ : Daemon} (hstart : d₀.Starts)
    (hrun : d₀.run services servers ms = some d) (hms : ∀ m ∈ ms, m.opens = true) :
    ClosesOwn services servers d₀ ms ∧
    (d.Quiet → ∀ f k, d.fds f = some (.conn k) ↔ ∃ t, d.threads[k]? = some t ∧
      t.fd = f ∧ (t.created = false ∨ getServerByName servers t.name = none)) := by
  have htidy₀ : d₀.Tidy servers := hstart.tidy
  refine ⟨htidy₀.closesOwn hms hrun, fun hquiet f k => ?_⟩
  have htidy : d.Tidy servers :=
    run_keeps (fun d m d' h hm hd => Daemon.Tidy.step h hm hd) htidy₀ hms hrun
  constructor
  · intro hf
    obtain ⟨t, ht, hmem⟩ := htidy.held f k hf
    obtain hpc | ⟨ran, hpc⟩ := hquiet.ended ht
    · rw [hpc] at hmem
      obtain ⟨hlookup, -⟩ | ⟨-, hlost⟩ := htidy.lost k t ht
      · rw [hpc] at hlookup
        cases hlookup
      · exact ⟨t, ht, (List.mem_singleton.mp hmem).symm, hlost.mp hpc⟩
    · rw [hpc] at hmem
      cases hmem
  · rintro ⟨t, ht, rfl, hnone⟩
    obtain ⟨hlookup, -⟩ | ⟨-, hlost⟩ := htidy.lost k t ht
    · obtain hpc | ⟨ran, hpc⟩ := hquiet.ended ht <;>
      · rw [hlookup] at hpc
        cases hpc
    · refine htidy.own k t ht t.fd ?_
      rw [hlost.mpr hnone]
      exact List.mem_singleton_self _

/-! ### When a stream has failed to open -/

/-- The kernel gives the lowest number that is not in use. -/
def Daemon.Lowest (d : Daemon) : Move → Prop
  | .accept _ fd _ => ∀ g < fd, d.fds g ≠ none
  | .act _ (.dup (some f)) => ∀ g < f, d.fds g ≠ none
  | _ => True

variable (services servers) in
/-- Nothing fails to open, and what the kernel gives is as `gives` says. -/
def Daemon.Fair (gives : Daemon → Move → Prop) (d : Daemon) : List Move → Prop
  | [] => True
  | m :: ms =>
    m.opens = true ∧ gives d m ∧ ∀ d' ∈ d.step services servers m, Daemon.Fair gives d' ms

theorem Daemon.Fair.opens {gives : Daemon → Move → Prop} (h : d.Fair services servers gives ms)
    (hrun : d.run services servers ms = some d') : ∀ m ∈ ms, m.opens = true := by
  induction ms generalizing d with
  | nil => exact fun m hm => absurd hm List.not_mem_nil
  | cons m ms ih =>
    obtain ⟨d₁, hd₁, hrun⟩ := Option.bind_eq_some_iff.mp hrun
    intro m' hm'
    obtain rfl | hm' := List.mem_cons.mp hm'
    · exact h.1
    · exact ih (h.2.2 d₁ hd₁) hrun m' hm'

theorem Daemon.Fair.append {gives : Daemon → Move → Prop} {ms' : List Move}
    (h : d.Fair services servers gives ms) (hrun : d.run services servers ms = some d')
    (h' : d'.Fair services servers gives ms') : d.Fair services servers gives (ms ++ ms') := by
  induction ms generalizing d with
  | nil =>
    cases hrun
    exact h'
  | cons m ms ih =>
    obtain ⟨d₁, hd₁, hrun⟩ := Option.bind_eq_some_iff.mp hrun
    refine ⟨h.1, h.2.1, fun d₂ hd₂ => ?_⟩
    obtain rfl : d₁ = d₂ := Option.some.inj (hd₁.symm.trans hd₂)
    exact ih (h.2.2 d₁ hd₁) hrun

/-- Some number is the lowest that is not in use. -/
theorem exists_lowest (hnone : d.fds f = none) :
    ∃ g ≤ f, d.fds g = none ∧ ∀ g' < g, d.fds g' ≠ none := by
  have hex : ∃ g, d.fds g = none := ⟨f, hnone⟩
  exact ⟨Nat.find hex, Nat.find_min' hex hnone, Nat.find_spec hex,
    fun g' hg' => Nat.find_min hex hg'⟩

variable (services servers) in
/-- The daemon comes to a state where thread `k` is about to close its descriptor again. -/
def Daemon.ComesToClose (d : Daemon) (k : ℕ) : Prop :=
  ∃ ms d' t, d.Fair services servers Daemon.Lowest ms ∧ d.run services servers ms = some d' ∧
    d'.Owned ∧ d'.threads[k]? = some t ∧ t.pc = .closeAgain

theorem Daemon.ComesToClose.step (h : d'.ComesToClose services servers k) (hm : m.opens = true)
    (hlowest : d.Lowest m) (hstep : d.step services servers m = some d') :
    d.ComesToClose services servers k := by
  obtain ⟨ms, d₁, t, hfair, hrun, h⟩ := h
  refine ⟨m :: ms, d₁, t, ⟨hm, hlowest, fun d₂ hd₂ => ?_⟩, ?_, h⟩
  · obtain rfl : d' = d₂ := Option.some.inj (hstep.symm.trans hd₂)
    exact hfair
  · rw [Daemon.run, hstep]
    exact hrun

theorem Daemon.Owned.comesToClose_check (h : d.Owned) (ht : d.threads[k]? = some t)
    {out err : Option ℕ} (hpc : t.pc = .check out err) (hnone : out = none ∨ err = none) :
    d.ComesToClose services servers k := by
  have hnext : t.next servers d.stdout d.stderr .giveUp = some (.closeAgain, .closes t.fd) := by
    unfold ServiceThread.next
    rw [hpc]
    cases out with
    | none => rfl
    | some out =>
      cases err with
      | none => rfl
      | some err => simp at hnone
  have hstep : d.step services servers (.act k .giveUp) = some _ := step_of_next ht hnext rfl
  have hown := h.act hstep Act.noConfusion
  exact Daemon.ComesToClose.step (m := .act k .giveUp) ⟨[], _, _, trivial, rfl, hown, goto_self ht,
    rfl⟩ rfl trivial hstep

theorem Daemon.Owned.comesToClose_fdopen (h : d.Owned) (ht : d.threads[k]? = some t)
    (hpc : t.pc = .fdopenErr none f) : d.ComesToClose services servers k := by
  have hnext : t.next servers d.stdout d.stderr (.fdopen true) =
      some (.check none (some f), .nothing) := by
    unfold ServiceThread.next
    rw [hpc]
    rfl
  have hstep : d.step services servers (.act k (.fdopen true)) = some _ := step_of_next ht hnext rfl
  exact ((h.act hstep Act.noConfusion).comesToClose_check (goto_self ht) rfl (.inl rfl)).step
    (m := .act k (.fdopen true)) rfl trivial hstep

theorem Daemon.Owned.comesToClose_dup (h : d.Owned) (ht : d.threads[k]? = some t)
    (hpc : t.pc = .dupErr none) : d.ComesToClose services servers k := by
  obtain ⟨n, hn⟩ := h.finite
  obtain ⟨f, -, hf, hlowest⟩ := exists_lowest (hn n (Nat.le_refl n))
  have hnext : t.next servers d.stdout d.stderr (.dup (some f)) =
      some (.fdopenErr none f, .opens f) := by
    unfold ServiceThread.next
    rw [hpc]
  have hfd : d.fds t.fd = some (.conn k) :=
    h.own k t ht t.fd (by rw [hpc]; exact List.mem_cons_self)
  have happly : d.apply k t.fd (.opens f) = some (d.setFd f (some (.conn k))) := by
    rw [Daemon.apply, hfd, hf]
  have hstep : d.step services servers (.act k (.dup (some f))) = some _ :=
    step_of_next ht hnext happly
  exact ((h.act hstep Act.noConfusion).comesToClose_fdopen (goto_self ht) rfl).step
    (m := .act k (.dup (some f))) rfl hlowest hstep

/-- A thread that has failed to open a stream comes to close its descriptor again. -/
theorem Daemon.Owned.comesToClose (h : d.Owned) (ht : d.threads[k]? = some t)
    (hfailed : t.pc.failed = true) : d.ComesToClose services servers k := by
  cases hpc : t.pc with
  | dupErr out =>
    cases out with
    | none => exact h.comesToClose_dup ht hpc
    | some out =>
      rw [hpc] at hfailed
      cases hfailed
  | fdopenErr out f =>
    cases out with
    | none => exact h.comesToClose_fdopen ht hpc
    | some out =>
      rw [hpc] at hfailed
      cases hfailed
  | check out err =>
    refine h.comesToClose_check ht hpc ?_
    cases out with
    | none => exact .inl rfl
    | some out =>
      cases err with
      | none => exact .inr rfl
      | some err =>
        rw [hpc] at hfailed
        cases hfailed
  | closeAgain => exact ⟨[], d, t, trivial, rfl, h, ht, hpc⟩
  | _ =>
    rw [hpc] at hfailed
    cases hfailed

variable (services servers) in
/-- What a thread closes, whose descriptor was closed before. -/
theorem closing_again (ht : d.threads[k]? = some t) (hpc : t.pc = .closeAgain) :
    (d.step services servers (.act k .closeAgain)).isSome ∧
      d.closing servers (.act k .closeAgain) = some (k, t.fd) := by
  have hnext : t.next servers d.stdout d.stderr .closeAgain =
      some (.returned false, .closes t.fd) := by
    unfold ServiceThread.next
    rw [hpc]
  refine ⟨by rw [step_of_next ht hnext rfl]; rfl, ?_⟩
  rw [Daemon.closing, ht, Option.bind_some, hnext]
  rfl

variable (servers) in
/-- A number that is not in use is given to a client, when enough of them have come: each takes the
lowest. The threads that there are stay where they are. -/
theorem comes_to_number (hservices : services ≠ []) (hnone : d.fds f = none) :
    ∃ ms d' j, d.Fair services servers Daemon.Lowest ms ∧ d.run services servers ms = some d' ∧
      d'.fds f = some (.conn j) ∧ d.threads.length ≤ j ∧
      ∀ (k : ℕ) (t : ServiceThread), d.threads[k]? = some t → d'.threads[k]? = some t := by
  obtain ⟨s, rest, rfl⟩ := List.exists_cons_of_ne_nil hservices
  obtain ⟨g, hle, hg, hlowest⟩ := exists_lowest hnone
  have hstep {d : Daemon} {g : ℕ} (hg : d.fds g = none) :
      d.step (s :: rest) servers (.accept 0 g true) = some (d.accepted s.name g true) := by
    rw [Daemon.step, List.getElem?_cons_zero, hg]
  -- on how far the lowest number is from this one
  obtain ⟨n, hn⟩ : ∃ n, f < g + n := ⟨f + 1, by omega⟩
  induction n generalizing d g with
  | zero => omega
  | succ n ih =>
    have hlen : (d.accepted s.name g true).threads.length = d.threads.length + 1 :=
      List.length_append
    obtain rfl | hlt := Nat.eq_or_lt_of_le hle
    · refine ⟨[.accept 0 g true], d.accepted s.name g true, d.threads.length,
        ⟨rfl, hlowest, fun _ _ => trivial⟩, ?_, (accepted_fds hg).mpr (.inr ⟨rfl, rfl⟩),
        Nat.le_refl _, fun k t ht => accepted_of_threads ht⟩
      rw [Daemon.run, hstep hg]
      rfl
    · have hfds : (d.accepted s.name g true).fds = Function.update d.fds g
          (some (.conn d.threads.length)) := rfl
      have hnone' : (d.accepted s.name g true).fds f = none := by
        rw [hfds, Function.update_of_ne (by omega), hnone]
      obtain ⟨g', hle', hg', hlowest'⟩ := exists_lowest hnone'
      have hnext : g < g' := by
        refine Nat.lt_of_not_le fun hback => ?_
        rw [hfds] at hg'
        obtain rfl | hback := Nat.eq_or_lt_of_le hback
        · rw [Function.update_self] at hg'
          cases hg'
        · rw [Function.update_of_ne (by omega)] at hg'
          exact hlowest g' hback hg'
      obtain ⟨ms, d', j, hfair, hrun, hf, hj, hthreads⟩ := ih hnone' g' hle' hg' hlowest' (by omega)
      refine ⟨.accept 0 g true :: ms, d', j, ⟨rfl, hlowest, fun d₁ hd₁ => ?_⟩, ?_, hf, by omega,
        fun k t ht => hthreads k t (accepted_of_threads ht)⟩
      · obtain rfl := Option.some.inj ((hstep hg).symm.trans hd₁)
        exact hfair
      · rw [Daemon.run, hstep hg]
        exact hrun

variable (services servers) in
/-- It may come to this, without another failure, and with numbers that the kernel gives so: a
thread closes a descriptor of another connection. -/
def Daemon.MayCloseForeign (gives : Daemon → Move → Prop) (d : Daemon) : Prop :=
  ∃ ms m d' k f j, d.Fair services servers gives ms ∧ m.opens = true ∧
    d.run services servers ms = some d' ∧ (d'.step services servers m).isSome ∧
    d'.closing servers m = some (k, f) ∧ d'.fds f = some (.conn j) ∧ j ≠ k

theorem Daemon.Fair.mono {gives gives' : Daemon → Move → Prop}
    (hgives : ∀ d m, gives d m → gives' d m) (h : d.Fair services servers gives ms) :
    d.Fair services servers gives' ms := by
  induction ms generalizing d with
  | nil => trivial
  | cons m ms ih => exact ⟨h.1, hgives d m h.2.1, fun d' hd' => ih (h.2.2 d' hd')⟩

/-- **A thread may come to close a descriptor of another connection** exactly if a stream has failed
to open: in any state that is reached before this happens for the first time, and without another
failure. The kernel may give what numbers it likes, or only the lowest ones. -/
theorem foreign_close_iff {d₀ : Daemon} (hservices : services ≠ []) (hstart : d₀.Starts)
    (hrun : d₀.run services servers ms = some d) (hms : ∀ m ∈ ms, m.again = false)
    {gives : Daemon → Move → Prop} (hgives : ∀ d m, d.Lowest m → gives d m) :
    d.MayCloseForeign services servers gives ↔
      ∃ (k : ℕ) (t : ServiceThread), d.threads[k]? = some t ∧ t.pc.failed = true := by
  have howned : d.Owned :=
    run_keeps (fun d m d' h hm hd => Daemon.Owned.step h hm hd) hstart.owned hms hrun
  constructor
  · rintro ⟨ms', m, d', k, f, j, hfair, hm, hrun', hsome, hclosing, hf, hj⟩
    by_contra hnot
    have hsure : d.Sure :=
      ⟨howned, fun k t ht => Bool.eq_false_iff.mpr fun hfailed => hnot ⟨k, t, ht, hfailed⟩⟩
    have hsure' : d'.Sure :=
      run_keeps (fun d m d' h hm hd => (Daemon.Sure.step h hm hd).2) hsure (hfair.opens hrun') hrun'
    obtain ⟨d₁, hstep⟩ := Option.isSome_iff_exists.mp hsome
    have hown := hsure'.closes (hsure'.step hm hstep).1 hclosing
    rw [hf] at hown
    cases hown
    exact hj rfl
  · rintro ⟨k, t, ht, hfailed⟩
    have hcomes : d.ComesToClose services servers k := howned.comesToClose ht hfailed
    obtain ⟨ms', d', t', hfair, hrun', howned', ht', hpc⟩ := hcomes
    cases hfd : d'.fds t'.fd with
    | some file =>
      obtain ⟨j, hj, rfl⟩ := howned'.again k t' ht' hpc file hfd
      obtain ⟨hsome, hclosing⟩ := closing_again services servers ht' hpc
      exact ⟨ms', _, d', k, t'.fd, j, hfair.mono hgives, rfl, hrun', hsome, hclosing, hfd, hj⟩
    | none =>
      -- a client that comes gets the number
      obtain ⟨ms'', d'', j, hfair', hrun'', hconn, hj, hthreads⟩ :=
        comes_to_number servers hservices hfd
      obtain ⟨hsome, hclosing⟩ := closing_again services servers (hthreads k t' ht') hpc
      have hk := (List.getElem?_eq_some_iff.mp ht').1
      refine ⟨ms' ++ ms'', _, d'', k, t'.fd, j, (hfair.append hrun' hfair').mono hgives, rfl, ?_,
        hsome, hclosing, hconn, by omega⟩
      rw [run_append, hrun', Option.bind_some, hrun'']

end Run

namespace Sample

/-- A service. -/
def services : List Service := [⟨literal "chargen", 1919, []⟩]

/-- The servers that are registered. -/
def servers : List Server := [⟨literal "chargen"⟩]

/-- A daemon whose first descriptors are in use. -/
def daemon : Daemon := ⟨fun f => if f < 4 then some .other else none, none, none, []⟩

theorem starts_daemon : daemon.Starts where
  fds f k := by
    unfold daemon
    dsimp only
    split_ifs <;> simp
  finite := ⟨4, fun f hf => if_neg (Nat.not_lt.mpr hf)⟩
  streams := ⟨rfl, rfl⟩
  threads := rfl

/-- A client comes, and its server is begun. -/
def opening (k fd out err : ℕ) : List Move :=
  [.accept 0 fd true, .act k .lookup, .act k (.dup (some out)), .act k (.fdopen true),
    .act k (.dup (some err)), .act k (.fdopen true), .act k (.save .out), .act k (.save .err),
    .act k (.put .out), .act k (.put .err)]

/-- Its server ends. -/
def ending (k : ℕ) : List Move :=
  [.act k (.restore .out), .act k (.restore .err), .act k .fclose, .act k .fclose, .act k .close]

/-- Two clients; for the second one there is no thread. -/
def moves : List Move := opening 0 4 5 6 ++ [.accept 0 7 false] ++ ending 0

/-- A client for whom a stream does not open. -/
def failing : List Move := [.accept 0 4 true, .act 0 .lookup, .act 0 (.dup none)]

theorem descriptors_accounted_two : ∃ d, daemon.run services servers moves = some d ∧
    ClosesOwn services servers daemon moves ∧ ∀ f k, d.fds f = some (.conn k) ↔
    ∃ t, d.threads[k]? = some t ∧
      t.fd = f ∧ (t.created = false ∨ getServerByName servers t.name = none) := by
  have hquiet : ∃ d ∈ daemon.run services servers moves, d.Quiet := by decide
  obtain ⟨d, hd, hquiet⟩ := hquiet
  obtain ⟨hown, hleft⟩ := descriptors_accounted starts_daemon hd (by decide)
  exact ⟨d, hd, hown, hleft hquiet⟩

/-- The kernel gives the lowest number. -/
theorem foreign_close_iff_failing : ∃ d, daemon.run services servers failing = some d ∧
    (d.MayCloseForeign services servers Daemon.Lowest ↔
      ∃ (k : ℕ) (t : ServiceThread), d.threads[k]? = some t ∧ t.pc.failed = true) := by
  have hsome : (daemon.run services servers failing).isSome := by decide
  obtain ⟨d, hd⟩ := Option.isSome_iff_exists.mp hsome
  exact ⟨d, hd, foreign_close_iff (by decide) starts_daemon hd (by decide) fun _ _ h => h⟩

end Sample

end LwNBD.Xinetd
