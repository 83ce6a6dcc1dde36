import LwNBD.Xinetd.Config

/-!
# The threads of the service daemon

`examples/mini-xinetd.c`: every connection is served by a thread of its own. The thread looks for
the server with the name of the service, opens two streams to the connection, puts them in the place
of `stdout` and `stderr`, which are the whole daemon's, runs the server, puts back what was there
and closes the connection.

## The model

* `getServerByName` — of `src/src/servers.c`.
* `ServiceThread.next` — `service_thread` with `RUN_SERVER_ON_SOCKET`, a call at a time, with the
  result of the call, and an assignment of `stdout` or `stderr` at a time.
* `Daemon` — the descriptors of the process, the streams that are in the place of `stdout` and
  `stderr`, and the threads; `Daemon.step` — a connection is accepted, or a thread goes on. The
  kernel may choose any descriptor that is not in use.

Left out are what is printed, also to a stream that is closed; what `run` does with descriptors; a
`malloc` that fails in `main`, which writes through its result; and `pthread_detach`, also of a
thread that was not created.

## What is proved

* `step_act`, `step_accept` — what the steps are.
* `run_keeps` — what every step keeps holds after a run.
-/

namespace LwNBD.Xinetd

/-! ### Servers -/

/-- `struct lwnbd_server`, with what the daemon looks at. -/
structure Server where
  /-- `name`. -/
  name : Bytes
  deriving DecidableEq

/-- `get_server_by_name`, with the servers that are registered. -/
def getServerByName (servers : List Server) (name : Bytes) : Option Server :=
  servers.find? (·.name = name)

/-! ### Threads -/

/-- A stream that is in the place of `stdout` or `stderr`: that of the thread with this number, or
the one of the start. -/
abbrev Stream := Option ℕ

/-- `stdout` or `stderr`. -/
inductive Std where
  /-- `stdout`. -/
  | out
  /-- `stderr`. -/
  | err
  deriving DecidableEq

/-- Where a thread is: before this call, or this assignment. Streams are given by their
descriptors. -/
inductive Pc where
  /-- `get_server_by_name`. -/
  | lookup
  /-- The first `dup`. -/
  | dupOut
  /-- The first `fdopen`. -/
  | fdopenOut (fd : ℕ)
  /-- The second `dup`. -/
  | dupErr (out : Option ℕ)
  /-- The second `fdopen`. -/
  | fdopenErr (out : Option ℕ) (fd : ℕ)
  /-- `if (!thread_stdout || !thread_stderr)`, and `old_stdout = stdout`. -/
  | check (out err : Option ℕ)
  /-- `old_stderr = stderr`. -/
  | saveErr (out err : ℕ) (oldStdout : Stream)
  /-- `stdout = thread_stdout`. -/
  | putOut (out err : ℕ) (oldStdout oldStderr : Stream)
  /-- `stderr = thread_stderr`. -/
  | putErr (out err : ℕ) (oldStdout oldStderr : Stream)
  /-- `run` is running, and then `stdout = old_stdout`. -/
  | running (out err : ℕ) (oldStdout oldStderr : Stream)
  /-- `stderr = old_stderr`. -/
  | restoreErr (out err : ℕ) (oldStderr : Stream)
  /-- `fclose(thread_stdout)`. -/
  | fcloseOut (out err : ℕ)
  /-- `fclose(thread_stderr)`. -/
  | fcloseErr (err : ℕ)
  /-- `close(fd)` after the macro. -/
  | close
  /-- The same, when the macro has closed it. -/
  | closeAgain
  /-- The thread has ended, and its server was run or not. -/
  | returned (ran : Bool)
  /-- There is no server, or no thread. -/
  | lost
  deriving DecidableEq

/-- A connection and its thread. -/
structure ServiceThread where
  /-- `name`. -/
  name : Bytes
  /-- `fd`. -/
  fd : ℕ
  /-- `pthread_create` made it. -/
  created : Bool
  /-- Where it is. -/
  pc : Pc

/-- What a thread does, with the result. -/
inductive Act where
  /-- It looks for the server. -/
  | lookup
  /-- `dup`. -/
  | dup (fd : Option ℕ)
  /-- `fdopen`. -/
  | fdopen (ok : Bool)
  /-- It saves what is there. -/
  | save (v : Std)
  /-- It puts its stream in the place. -/
  | put (v : Std)
  /-- A stream is `NULL`: `close(fd)` in the macro. -/
  | giveUp
  /-- It puts back what was there. -/
  | restore (v : Std)
  /-- `fclose`. -/
  | fclose
  /-- `close(fd)` after the macro. -/
  | close
  /-- `close(fd)` after the macro, which has closed it. -/
  | closeAgain
  deriving DecidableEq

/-- What comes of it for the others. -/
inductive Effect where
  /-- Nothing. -/
  | nothing
  /-- A descriptor is opened, for the same file as `fd`. -/
  | opens (f : ℕ)
  /-- A descriptor is closed. -/
  | closes (f : ℕ)
  /-- Its stream is put in the place. -/
  | put (v : Std)
  /-- What was there is put back. -/
  | restore (v : Std) (old : Stream)

/-- `service_thread`, a call at a time: where it is then, and what came of it. -/
def ServiceThread.next (servers : List Server) (stdout stderr : Stream)
    (t : ServiceThread) (a : Act) :
    Option (Pc × Effect) :=
  match t.pc, a with
  | .lookup, .lookup =>
    some (if (getServerByName servers t.name).isSome then .dupOut else .lost, .nothing)
  | .dupOut, .dup (some f) => some (.fdopenOut f, .opens f)
  -- `fdopen` of -1 is `NULL`
  | .dupOut, .dup none => some (.dupErr none, .nothing)
  | .fdopenOut f, .fdopen ok => some (.dupErr (if ok then some f else none), .nothing)
  | .dupErr out, .dup (some f) => some (.fdopenErr out f, .opens f)
  | .dupErr out, .dup none => some (.check out none, .nothing)
  | .fdopenErr out f, .fdopen ok => some (.check out (if ok then some f else none), .nothing)
  | .check (some out) (some err), .save .out => some (.saveErr out err stdout, .nothing)
  | .check none _, .giveUp => some (.closeAgain, .closes t.fd)
  | .check (some _) none, .giveUp => some (.closeAgain, .closes t.fd)
  | .saveErr out err oldStdout, .save .err => some (.putOut out err oldStdout stderr, .nothing)
  | .putOut out err oldStdout oldStderr, .put .out =>
    some (.putErr out err oldStdout oldStderr, .put .out)
  | .putErr out err oldStdout oldStderr, .put .err =>
    some (.running out err oldStdout oldStderr, .put .err)
  | .running out err oldStdout oldStderr, .restore .out =>
    some (.restoreErr out err oldStderr, .restore .out oldStdout)
  | .restoreErr out err oldStderr, .restore .err =>
    some (.fcloseOut out err, .restore .err oldStderr)
  | .fcloseOut out err, .fclose => some (.fcloseErr err, .closes out)
  | .fcloseErr err, .fclose => some (.close, .closes err)
  | .close, .close => some (.returned true, .closes t.fd)
  | .closeAgain, .closeAgain => some (.returned false, .closes t.fd)
  | _, _ => none

/-! ### The daemon -/

/-- What a descriptor is open for. -/
inductive File where
  /-- Something else than a connection. -/
  | other
  /-- The connection with this number, that of its thread. -/
  | conn (k : ℕ)
  deriving DecidableEq

/-- The daemon. -/
structure Daemon where
  /-- The descriptors. -/
  fds : ℕ → Option File
  /-- `stdout`. -/
  stdout : Stream
  /-- `stderr`. -/
  stderr : Stream
  /-- The threads, in the order of their connections. -/
  threads : List ServiceThread

/-- What happens. -/
inductive Move where
  /-- A connection to service `i` is accepted, and `pthread_create` makes a thread or not. -/
  | accept (i fd : ℕ) (created : Bool)
  /-- Thread `k` goes on. -/
  | act (k : ℕ) (a : Act)
  deriving DecidableEq

/-- The thread goes on. -/
def Daemon.goto (d : Daemon) (k : ℕ) (pc : Pc) : Daemon :=
  { d with threads := d.threads.modify k fun t => { t with pc := pc } }

/-- A descriptor is opened or closed. -/
def Daemon.setFd (d : Daemon) (f : ℕ) (file : Option File) : Daemon :=
  { d with fds := Function.update d.fds f file }

/-- `stdout` or `stderr`. -/
def Daemon.std (d : Daemon) : Std → Stream
  | .out => d.stdout
  | .err => d.stderr

/-- It is assigned. -/
def Daemon.setStd (d : Daemon) (v : Std) (s : Stream) : Daemon :=
  match v with
  | .out => { d with stdout := s }
  | .err => { d with stderr := s }

@[simp] theorem Daemon.setStd_fds (d : Daemon) (v : Std) (s : Stream) :
    (d.setStd v s).fds = d.fds := by
  cases v <;> rfl

@[simp] theorem Daemon.setStd_threads (d : Daemon) (v : Std) (s : Stream) :
    (d.setStd v s).threads = d.threads := by
  cases v <;> rfl

/-- What comes of what thread `k` does. A descriptor is opened for what `fd` is open for. -/
def Daemon.apply (d : Daemon) (k fd : ℕ) : Effect → Option Daemon
  | .nothing => some d
  | .opens f =>
    match d.fds fd, d.fds f with
    | some file, none => some (d.setFd f (some file))
    | _, _ => none
  | .closes f => some (d.setFd f none)
  | .put v => some (d.setStd v (some k))
  | .restore v old => some (d.setStd v old)

/-- A connection to the service `name`, with its thread. -/
def Daemon.accepted (d : Daemon) (name : Bytes) (fd : ℕ) (created : Bool) : Daemon where
  fds := Function.update d.fds fd (some (.conn d.threads.length))
  stdout := d.stdout
  stderr := d.stderr
  threads := d.threads ++ [⟨name, fd, created, if created then .lookup else .lost⟩]

section Daemon

variable (services : List Service) (servers : List Server)

/-- One step of the daemon, if it is possible. -/
def Daemon.step (d : Daemon) : Move → Option Daemon
  | .accept i fd created =>
    match services[i]?, d.fds fd with
    | some s, none => some (d.accepted s.name fd created)
    | _, _ => none
  | .act k a =>
    d.threads[k]?.bind fun t => (t.next servers d.stdout d.stderr a).bind fun (pc, e) =>
      (d.apply k t.fd e).map (·.goto k pc)

/-- Many steps. -/
def Daemon.run (d : Daemon) : List Move → Option Daemon
  | [] => some d
  | m :: ms => (d.step services servers m).bind (run · ms)

end Daemon

/-- The daemon at the start: no connection, and some descriptor is the last one in use. -/
structure Daemon.Starts (d : Daemon) : Prop where
  /-- No connection is open. -/
  fds : ∀ f k, d.fds f ≠ some (.conn k)
  /-- Only so many descriptors are open. -/
  finite : ∃ n, ∀ f ≥ n, d.fds f = none
  /-- `stdout` and `stderr`. -/
  streams : d.stdout = none ∧ d.stderr = none
  /-- No thread. -/
  threads : d.threads = []

/-- The thread has ended, or there is none for the connection. -/
def Pc.ended : Pc → Bool
  | .returned _ | .lost => true
  | _ => false

/-- Every thread has ended. -/
def Daemon.Quiet (d : Daemon) : Prop := ∀ t ∈ d.threads, t.pc.ended = true

instance {d : Daemon} : Decidable d.Quiet :=
  inferInstanceAs (Decidable (∀ t ∈ d.threads, t.pc.ended = true))

/-! ### Steps -/

section Step

variable {services : List Service} {servers : List Server} {d d' : Daemon} {t : ServiceThread}
  {m : Move} {ms : List Move} {k j fd f : ℕ} {a : Act} {pc : Pc} {e : Effect}

theorem goto_self (h : d.threads[k]? = some t) :
    (d.goto k pc).threads[k]? = some { t with pc := pc } := by
  simp [Daemon.goto, h]

theorem goto_ne (h : j ≠ k) : (d.goto k pc).threads[j]? = d.threads[j]? := by
  simp [Daemon.goto, h.symm]

/-- A step of a thread. -/
theorem step_act (h : d.step services servers (.act k a) = some d') :
    ∃ t pc e d₁, d.threads[k]? = some t ∧ t.next servers d.stdout d.stderr a = some (pc, e) ∧
      d.apply k t.fd e = some d₁ ∧ d' = d₁.goto k pc := by
  obtain ⟨t, ht, h⟩ := Option.bind_eq_some_iff.mp h
  obtain ⟨⟨pc, e⟩, hnext, h⟩ := Option.bind_eq_some_iff.mp h
  obtain ⟨d₁, happly, rfl⟩ := Option.map_eq_some_iff.mp h
  exact ⟨t, pc, e, d₁, ht, hnext, happly, rfl⟩

theorem Daemon.Quiet.ended (h : d.Quiet) (ht : d.threads[k]? = some t) :
    t.pc = .lost ∨ ∃ ran, t.pc = .returned ran := by
  have hended := h t (List.mem_of_getElem? ht)
  cases hpc : t.pc with
  | lost => exact .inl rfl
  | returned ran => exact .inr ⟨ran, rfl⟩
  | _ =>
    rw [hpc] at hended
    cases hended

theorem apply_threads (h : d.apply k fd e = some d') : d'.threads = d.threads := by
  cases e with
  | opens f =>
    rw [Daemon.apply] at h
    split at h <;> cases h
    rfl
  | nothing | closes =>
    cases h
    rfl
  | put | restore =>
    cases h
    exact Daemon.setStd_threads ..

theorem step_of_next (ht : d.threads[k]? = some t)
    (hnext : t.next servers d.stdout d.stderr a = some (pc, e))
    (happly : d.apply k t.fd e = some d') :
    d.step services servers (.act k a) = some (d'.goto k pc) := by
  rw [Daemon.step, ht, Option.bind_some, hnext, Option.bind_some]
  change (d.apply k t.fd e).map (·.goto k pc) = _
  rw [happly]
  rfl

/-- A connection that is accepted. -/
theorem step_accept {i : ℕ} {created : Bool}
    (h : d.step services servers (.accept i fd created) = some d') :
    ∃ s, services[i]? = some s ∧ d.fds fd = none ∧ d' = d.accepted s.name fd created := by
  rw [Daemon.step] at h
  cases hs : services[i]? with
  | none =>
    rw [hs] at h
    cases h
  | some s =>
    cases hnone : d.fds fd with
    | some _ =>
      rw [hs, hnone] at h
      cases h
    | none =>
      rw [hs, hnone] at h
      cases h
      exact ⟨s, rfl, rfl, rfl⟩

/-- A thread is the new one, or was there before. -/
theorem accepted_threads {name : Bytes} {created : Bool}
    (ht : (d.accepted name fd created).threads[k]? = some t) : d.threads[k]? = some t ∨
      k = d.threads.length ∧ t = ⟨name, fd, created, if created then .lookup else .lost⟩ := by
  rw [Daemon.accepted] at ht
  rcases Nat.lt_trichotomy k d.threads.length with hlt | rfl | hlt
  · rw [List.getElem?_append_left hlt] at ht
    exact .inl ht
  · rw [List.getElem?_concat_length] at ht
    cases ht
    exact .inr ⟨rfl, rfl⟩
  · rw [List.getElem?_eq_none (by rw [List.length_append]; exact hlt)] at ht
    cases ht

theorem accepted_of_threads {name : Bytes} {created : Bool} (ht : d.threads[k]? = some t) :
    (d.accepted name fd created).threads[k]? = some t := by
  rw [Daemon.accepted, List.getElem?_append_left (List.getElem?_eq_some_iff.mp ht).1, ht]

theorem run_append (d : Daemon) (p ms : List Move) :
    d.run services servers (p ++ ms) = (d.run services servers p).bind
    (Daemon.run services servers · ms) := by
  induction p generalizing d with
  | nil => rfl
  | cons m p ih =>
    rw [List.cons_append, Daemon.run, Daemon.run]
    cases d.step services servers m with
    | none => rfl
    | some d' => exact ih d'

/-- What every step keeps holds after a run, and before each of its steps. -/
theorem run_keeps {I : Daemon → Prop} {ok : Move → Prop}
    (hstep : ∀ d m d', I d → ok m → d.step services servers m = some d' → I d') (h : I d)
    (hms : ∀ m ∈ ms, ok m) (hrun : d.run services servers ms = some d') : I d' := by
  induction ms generalizing d with
  | nil =>
    cases hrun
    exact h
  | cons m ms ih =>
    obtain ⟨d₁, hd₁, hrun⟩ := Option.bind_eq_some_iff.mp hrun
    exact ih (hstep d m d₁ h (hms m List.mem_cons_self) hd₁)
      (fun m' hm' => hms m' (List.mem_cons_of_mem _ hm')) hrun

end Step

end LwNBD.Xinetd
