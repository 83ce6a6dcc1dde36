import LwNBD.Core.Plugins
import LwNBD.Resumption.Rules

/-!
# Batch creation

`lwnbd_plugin_news` in `src/plugins.c` is given an array of configurations that is ended by a
`NULL`, and creates an export of each. Its loop goes on while the array is not `NULL`, and not while
the entry is not.

## The model

* `lwnbdPluginNews` — the function. Its calls are those of `lwnbd_plugin_new`: what is handed to it,
  answered by what the constructor does with it. It has no meaning to read past the array, nor to
  count past the largest `int`.
* `Creates` — what is expected of it.

## What is proved

* `news_calls` — the entries are handed over in order, and the loop goes on past the terminator.
* `batch_created_never` — it does not do as expected, whatever the array.
-/

namespace LwNBD

open Resumption

variable {C : Type}

/-- A program that creates exports of configurations, where `NULL` is none. -/
abbrev BatchProg (C α : Type) := Prog Library (Option C) (fun _ => CtorRun) α

/-- `INT_MAX`. -/
def INT_MAX : ℕ := 2 ^ 31 - 1

/-- One round of the loop of `lwnbd_plugin_news`. -/
def newsRound (plugin : UInt32) (pconfig : Option (List (Option C))) (i : ℕ) :
    BatchProg C (Ctl ℕ ℤ) :=
  match pconfig with
  | none => pure (.done 0)
  | some array =>
    match array[i]? with
    | none => .halt .undefined
    | some entry =>
      if i = INT_MAX then .halt .undefined
      else do
        let ctor ← Prog.perform entry
        match lwnbdPluginNew (← Prog.read) plugin ctor with
        | .halt _ => .halt .undefined
        | .ret (_, lib) => do
          Prog.modify fun _ => lib
          pure (.next (i + 1))

/-- `lwnbd_plugin_news`. -/
def lwnbdPluginNews (fuel : ℕ) (plugin : UInt32) (pconfig : Option (List (Option C))) :
    BatchProg C ℤ :=
  Prog.loop fuel (newsRound plugin pconfig) 0

/-- What is expected of a batch: the function returns, and has called `lwnbd_plugin_new` once for
each entry before the terminator, in order, and for nothing else. -/
def Creates {σ : Type} (env : Env (Option C) (fun _ => CtorRun) σ) (lib : Library)
    (w : σ) (plugin : UInt32) (entries : List C) (more : List (Option C)) : Prop :=
  ∃ fuel r, wp env (lwnbdPluginNews fuel plugin (some (entries.map some ++ none :: more)))
    (fun o _ _ h => o = .ret r ∧ calls h = entries.map some) lib w

section Run

variable {σ : Type} (env : Env (Option C) (fun _ => CtorRun) σ)

/-- The entries are handed over in order, and none ends the loop: when its fuel runs out, as many
were as it had rounds. -/
theorem news_calls (plugin : UInt32) (array : List (Option C)) (n i : ℕ) (lib : Library) (w : σ) :
    wp env (Prog.loop n (newsRound plugin (some array)) i) (fun o _ _ h => ∃ e, o = .halt e ∧
      calls h <+: array.drop i ∧ (e = .fuel → calls h = (array.drop i).take n)) lib w := by
  induction n generalizing i lib w with
  | zero => exact ⟨.fuel, rfl, List.nil_prefix, fun _ => rfl⟩
  | succ n ih =>
    have hstop : ∃ e, Outcome.halt (α := ℤ) .undefined = .halt e ∧ [] <+: array.drop i ∧
        (e = .fuel → [] = (array.drop i).take (n + 1)) := ⟨.undefined, rfl, List.nil_prefix, nofun⟩
    rw [wp_loop_succ, newsRound]
    cases hentry : array[i]? with
    | none => exact hstop
    | some entry =>
      obtain ⟨hlt, rfl⟩ := List.getElem?_eq_some_iff.mp hentry
      have hdrop : array.drop i = array[i] :: array.drop (i + 1) := List.drop_eq_getElem_cons hlt
      dsimp only
      split_ifs with hmax
      · exact hstop
      · rw [wp_bind, wp_perform, Post.seq_ret, wp_bind, wp_read, Post.seq_ret]
        cases lwnbdPluginNew lib plugin (env w array[i]).1 with
        | halt e =>
          refine ⟨.undefined, rfl, ?_, nofun⟩
          rw [hdrop]
          exact List.prefix_append [array[i]] _
        | ret x =>
          rw [wp_bind, wp_modify, Post.seq_ret, wp_pure]
          rw [Post.after_apply, Post.after_apply, Post.after_apply, Post.round_next]
          refine wp_mono env ?_ (ih (i + 1) x.2 (env w array[i]).2)
          rintro o lib' w' h ⟨e, rfl, hprefix, hfuel⟩
          refine ⟨e, rfl, ?_, fun he => ?_⟩
          · rw [hdrop]
            exact List.cons_prefix_cons.mpr ⟨rfl, hprefix⟩
          · rw [hdrop, List.take_succ_cons, ← hfuel he]
            rfl

theorem news_not_ret (plugin : UInt32) (array : List (Option C)) (fuel : ℕ)
    (lib : Library) (w : σ) :
    wp env (lwnbdPluginNews fuel plugin (some array)) (fun o _ _ _ => ∀ r, o ≠ .ret r) lib w := by
  refine wp_mono env ?_ (news_calls env plugin array fuel 0 lib w)
  rintro o lib' w' h ⟨e, rfl, -⟩ r
  exact nofun

/-- The terminator is handed over, if the loop has a round for it and all entries were handed
over. -/
theorem news_terminator (plugin : UInt32) (entries : List C) (more : List (Option C))
    (lib : Library) (w : σ) :
    wp env (lwnbdPluginNews (entries.length + 1) plugin (some (entries.map some ++ none :: more)))
      (fun o _ _ h => o = .halt .fuel → calls h = entries.map some ++ [none]) lib w := by
  refine wp_mono env ?_ (news_calls env plugin _ (entries.length + 1) 0 lib w)
  rintro o lib' w' h ⟨e, rfl, -, hfuel⟩ he
  have htake : (entries.map some ++ none :: more).take (entries.length + 1) =
      entries.map some ++ [none] := by
    rw [← List.length_map (f := some), List.take_length_add_append]
    rfl
  rw [hfuel (Outcome.halt.inj he), List.drop_zero, htake]

end Run

/-- **`lwnbd_plugin_news` does not do as expected**, whatever the plugin, the array, what is
registered and what the constructors do. -/
theorem batch_created_never {σ : Type} (env : Env (Option C) (fun _ => CtorRun) σ)
    (lib : Library) (w : σ) (plugin : UInt32) (entries : List C) (more : List (Option C)) :
    ¬ Creates env lib w plugin entries more := by
  rintro ⟨fuel, r, hret, -⟩
  exact news_not_ret env plugin _ fuel lib w r hret

namespace Sample

/-- A plugin without a constructor. -/
def plain : LwnbdPlugin :=
  ⟨⟨0, false, false, false, false, false⟩, true, false, [114], by decide, 0⟩

/-- What the library is when it is registered. -/
def withPlain : Library :=
  match lwnbdPluginInit .empty (some plain) with
  | .ret (_, lib) => lib
  | .halt _ => .empty

/-- A constructor that does nothing. -/
def build : Env (Option Unit) (fun _ => CtorRun) Unit := fun _ _ => (⟨0, id, fun _ h => h⟩, ())

/-- **The array that holds the terminator only** is read past it. -/
theorem batch_not_created : ¬ Creates build withPlain () 0 [] [] := by
  rintro ⟨fuel, r, hret, -⟩
  exact news_not_ret build 0 _ fuel withPlain () r hret

end Sample

end LwNBD
