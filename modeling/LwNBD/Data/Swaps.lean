import Mathlib.Data.List.Basic
import Mathlib.Logic.Function.Basic

/-!
# A variable that is saved and restored

Some parties share a variable. A party saves what is there, puts its own name there, and in the end
puts back what it has saved. Each of these is a step of its own, and others may come in between.
This is sound if the variable never names a party that is not inside: one that has not put its name
there, or has put back what it saved.

## The model

* `Swaps.Ev` — a party saves, puts or restores; `Swaps.run` — what comes of it, if each does so once
  at most.
* `Swaps.St.Remembers` — a party has found another one's name, and is still to put it back.
* `Swaps.Yielding` — no party restores while another one remembers its name.

## What is proved

* `Swaps.Clean.step` — what a step keeps, if nobody remembers the name of a party that restores.
* `Swaps.sound_iff` — when nobody is left that has saved, all was sound exactly if it was
  `Yielding`.
-/

namespace Swaps

/-- What a party does. -/
inductive Ev (ι : Type*) where
  /-- It saves what is there. -/
  | save (i : ι)
  /-- It puts its name there. -/
  | put (i : ι)
  /-- It puts back what it saved. -/
  | restore (i : ι)
  deriving DecidableEq

/-- Where a party is. -/
inductive Phase where
  /-- It has not yet saved. -/
  | before
  /-- It has saved. -/
  | saved
  /-- It is inside: it has put its name there. -/
  | inside
  /-- It has restored. -/
  | after
  deriving DecidableEq

/-- It has saved, and not restored. -/
def Phase.open : Phase → Bool
  | .saved | .inside => true
  | .before | .after => false

/-- The parties and the variable. -/
structure St (ι : Type*) where
  /-- Whom the variable names. -/
  cell : Option ι
  /-- What was saved. -/
  saved : ι → Option ι
  /-- Where they are. -/
  phase : ι → Phase

variable {ι : Type*} {i j k : ι} {s s' : St ι} {h : List (Ev ι)}

/-- At the start. -/
def St.start : St ι := ⟨none, fun _ => none, fun _ => .before⟩

/-- The variable names nobody, or a party that is inside. -/
def St.Sound (s : St ι) : Prop := ∀ i ∈ s.cell, s.phase i = .inside

/-- Nobody is left that is to restore. -/
def St.Over (s : St ι) : Prop := ∀ i, (s.phase i).open = false

/-- Party `k` remembers the name of `i`, and is still to put it back. -/
def St.Remembers (s : St ι) (k i : ι) : Prop := s.saved k = some i ∧ (s.phase k).open = true

/-- Parties in different phases are not the same. -/
theorem ne_of_phase {a b : Phase} (hi : s.phase i = a) (hj : s.phase j = b) (hab : a ≠ b) :
    i ≠ j := by
  rintro rfl
  exact hab (hi.symm.trans hj)

/-- It is sound, and will be: also the names that are remembered are those of parties that are
inside. -/
structure Clean (s : St ι) : Prop where
  /-- It is sound. -/
  sound : s.Sound
  /-- What is remembered. -/
  remembered : ∀ k i, s.Remembers k i → s.phase i = .inside

theorem clean_start : Clean (.start : St ι) where
  sound _ hi := by cases hi
  remembered _ _ h := by cases h.1

section Run

variable [DecidableEq ι]

/-- A party saves what is there. -/
def St.save (s : St ι) (i : ι) : St ι :=
  ⟨s.cell, Function.update s.saved i s.cell, Function.update s.phase i .saved⟩

/-- A party puts its name there. -/
def St.put (s : St ι) (i : ι) : St ι := ⟨some i, s.saved, Function.update s.phase i .inside⟩

/-- A party puts back what it saved. -/
def St.restore (s : St ι) (i : ι) : St ι := ⟨s.saved i, s.saved, Function.update s.phase i .after⟩

/-- A party does something, if it is its turn. -/
def step (s : St ι) : Ev ι → Option (St ι)
  | .save i => if s.phase i = .before then some (s.save i) else none
  | .put i => if s.phase i = .saved then some (s.put i) else none
  | .restore i => if s.phase i = .inside then some (s.restore i) else none

/-- Parties do things. -/
def run (s : St ι) : List (Ev ι) → Option (St ι)
  | [] => some s
  | e :: h => (step s e).bind (run · h)

/-- All is sound while these things happen. -/
def SoundUntil (s : St ι) (h : List (Ev ι)) : Prop := ∀ p s', p <+: h → run s p = some s' → s'.Sound

/-- No party restores while another one remembers its name. -/
def Yielding (s : St ι) (h : List (Ev ι)) : Prop :=
  ∀ p i s', p ++ [.restore i] <+: h → run s p = some s' → ∀ k, ¬ s'.Remembers k i

theorem phase_save (hj : j ≠ i) : (s.save i).phase j = s.phase j := Function.update_of_ne hj ..

theorem saved_save (hj : j ≠ i) : (s.save i).saved j = s.saved j := Function.update_of_ne hj ..

theorem phase_put (hj : j ≠ i) : (s.put i).phase j = s.phase j := Function.update_of_ne hj ..

theorem phase_restore (hj : j ≠ i) : (s.restore i).phase j = s.phase j :=
  Function.update_of_ne hj ..

/-- What a party does, and where it was. -/
theorem step_cases {e : Ev ι} (he : step s e = some s') :
    (∃ i, e = .save i ∧ s.phase i = .before ∧ s' = s.save i) ∨
    (∃ i, e = .put i ∧ s.phase i = .saved ∧ s' = s.put i) ∨
    (∃ i, e = .restore i ∧ s.phase i = .inside ∧ s' = s.restore i) := by
  cases e with
  | save i =>
    obtain ⟨hi, hs⟩ := Option.ite_none_right_eq_some.mp he
    exact .inl ⟨i, rfl, hi, (Option.some.inj hs).symm⟩
  | put i =>
    obtain ⟨hi, hs⟩ := Option.ite_none_right_eq_some.mp he
    exact .inr (.inl ⟨i, rfl, hi, (Option.some.inj hs).symm⟩)
  | restore i =>
    obtain ⟨hi, hs⟩ := Option.ite_none_right_eq_some.mp he
    exact .inr (.inr ⟨i, rfl, hi, (Option.some.inj hs).symm⟩)

theorem run_cons {e : Ev ι} (he : step s e = some s') (h : List (Ev ι)) :
    run s (e :: h) = run s' h := by
  rw [run, he]
  rfl

theorem run_append (s : St ι) (p h : List (Ev ι)) : run s (p ++ h) = (run s p).bind (run · h) := by
  induction p generalizing s with
  | nil => rfl
  | cons e p ih =>
    rw [List.cons_append, run, run]
    cases step s e with
    | none => rfl
    | some s' => exact ih s'

theorem SoundUntil.now (hsound : SoundUntil s h) : s.Sound := hsound [] s List.nil_prefix rfl

theorem SoundUntil.cons {e : Ev ι} (hsound : SoundUntil s (e :: h)) (he : step s e = some s') :
    SoundUntil s' h :=
  fun p t hp ht => hsound (e :: p) t ((List.prefix_cons_inj e).mpr hp) ((run_cons he p).trans ht)

theorem Yielding.cons {e : Ev ι} (hyield : Yielding s (e :: h)) (he : step s e = some s') :
    Yielding s' h :=
  fun p i t hp ht => hyield (e :: p) i t ((List.prefix_cons_inj e).mpr hp)
    ((run_cons he p).trans ht)

/-! ### Yielding is enough -/

theorem Clean.save (hs : Clean s) (hi : s.phase i = .before) : Clean (s.save i) where
  sound j hj := by
    have hinside := hs.sound j hj
    rw [phase_save (ne_of_phase hinside hi (by decide)), hinside]
  remembered k j := by
    rintro ⟨hsaved, hopen⟩
    by_cases hk : k = i
    · subst hk
      have hfound : (s.save k).saved k = s.cell := Function.update_self ..
      have hcell : s.cell = some j := hfound.symm.trans hsaved
      have hinside := hs.sound j hcell
      rw [phase_save (ne_of_phase hinside hi (by decide)), hinside]
    · rw [saved_save hk] at hsaved
      rw [phase_save hk] at hopen
      have hinside := hs.remembered k j ⟨hsaved, hopen⟩
      rw [phase_save (ne_of_phase hinside hi (by decide)), hinside]

theorem Clean.put (hs : Clean s) (hi : s.phase i = .saved) : Clean (s.put i) where
  sound j hj := by
    obtain rfl : i = j := Option.some.inj hj
    exact Function.update_self ..
  remembered k j := by
    rintro ⟨hsaved, hopen⟩
    have hremembers : s.Remembers k j := by
      refine ⟨hsaved, ?_⟩
      by_cases hk : k = i
      · rw [hk, hi]
        rfl
      · rwa [phase_put hk] at hopen
    have hinside := hs.remembered k j hremembers
    rw [phase_put (ne_of_phase hinside hi (by decide)), hinside]

/-- Nobody remembers the party, so what it puts back, and what is remembered, is the name of another
one. -/
theorem Clean.restore (hs : Clean s) (hi : s.phase i = .inside) (hnot : ∀ k, ¬ s.Remembers k i) :
    Clean (s.restore i) := by
  have hother {k j : ι} (h : s.Remembers k j) : (s.restore i).phase j = .inside := by
    have hj : j ≠ i := by
      rintro rfl
      exact hnot k h
    rw [phase_restore hj]
    exact hs.remembered k j h
  refine ⟨fun j hj => hother ⟨hj, by rw [hi]; rfl⟩, fun k j h => ?_⟩
  obtain ⟨hsaved, hopen⟩ := h
  have hk : k ≠ i := by
    rintro rfl
    have hafter : (s.restore k).phase k = .after := Function.update_self ..
    rw [hafter] at hopen
    cases hopen
  rw [phase_restore hk] at hopen
  exact hother ⟨hsaved, hopen⟩

/-- A step, of a party whose name nobody remembers if it restores. -/
theorem Clean.step {e : Ev ι} (hs : Clean s) (hyield : ∀ i, e = .restore i → ∀ k, ¬ s.Remembers k i)
    (he : step s e = some s') : Clean s' := by
  obtain ⟨i, rfl, hi, rfl⟩ | ⟨i, rfl, hi, rfl⟩ | ⟨i, rfl, hi, rfl⟩ := step_cases he
  · exact hs.save hi
  · exact hs.put hi
  · exact hs.restore hi (hyield i rfl)

theorem Clean.soundUntil (hs : Clean s) (hyield : Yielding s h) : SoundUntil s h := by
  intro p s' hp hrun
  induction p generalizing s h with
  | nil =>
    cases hrun
    exact hs.sound
  | cons e p ih =>
    obtain ⟨u, hu, hrun⟩ := Option.bind_eq_some_iff.mp hrun
    obtain ⟨h, rfl⟩ : ∃ h', h = e :: h' := by
      obtain ⟨rest, rfl⟩ := hp
      exact ⟨p ++ rest, rfl⟩
    have hnow : ∀ i, e = .restore i → ∀ k, ¬ s.Remembers k i := by
      rintro i rfl
      exact hyield [] i s ((List.prefix_cons_inj _).mpr List.nil_prefix) rfl
    exact ih (hs.step hnow hu) (hyield.cons hu) ((List.prefix_cons_inj e).mp hp) hrun

/-! ### It is needed -/

/-- Who remembers a party that has restored puts its name back, some day. -/
theorem not_sound_of_remembers (hk : s.Remembers k i) (hi : s.phase i = .after)
    (hrun : run s h = some s') (hover : s'.Over) : ¬ SoundUntil s h := by
  induction h generalizing s with
  | nil =>
    cases hrun
    have hopen := hk.2
    rw [hover k] at hopen
    cases hopen
  | cons e h ih =>
    intro hsound
    obtain ⟨u, hu, hrun⟩ := Option.bind_eq_some_iff.mp hrun
    have hrest := hsound.cons hu
    obtain ⟨hsaved, hopen⟩ := hk
    obtain ⟨j, rfl, hj, rfl⟩ | ⟨j, rfl, hj, rfl⟩ | ⟨j, rfl, hj, rfl⟩ := step_cases hu
    · have hkj : k ≠ j := by
        rintro rfl
        rw [hj] at hopen
        cases hopen
      have hij : i ≠ j := ne_of_phase hi hj (by decide)
      exact ih ⟨(saved_save hkj).trans hsaved, by rwa [phase_save hkj]⟩
        ((phase_save hij).trans hi) hrun hrest
    · have hij : i ≠ j := ne_of_phase hi hj (by decide)
      refine ih (s := s.put j) ⟨hsaved, ?_⟩ ((phase_put hij).trans hi) hrun hrest
      by_cases hkj : k = j
      · subst hkj
        have hinside : (s.put k).phase k = .inside := Function.update_self ..
        rw [hinside]
        rfl
      · rwa [phase_put hkj]
    · have hij : i ≠ j := ne_of_phase hi hj (by decide)
      by_cases hkj : k = j
      · -- it is put back
        subst hkj
        have hnow := hrest.now i hsaved
        rw [phase_restore hij, hi] at hnow
        cases hnow
      · exact ih (s := s.restore j) ⟨hsaved, by rwa [phase_restore hkj]⟩
          ((phase_restore hij).trans hi) hrun hrest

/-- What is sound, and comes to an end, is yielding. -/
theorem SoundUntil.yielding (hsound : SoundUntil s h) (hrun : run s h = some s') (hover : s'.Over) :
    Yielding s h := by
  intro p i t hp ht k hk
  obtain ⟨rest, rfl⟩ := hp
  rw [List.append_assoc, run_append, ht, Option.bind_some, List.singleton_append] at hrun
  obtain ⟨u, hu, hrun⟩ := Option.bind_eq_some_iff.mp hrun
  have hpart (q : List (Ev ι)) (v : St ι) (hq : q <+: rest) (hv : run u q = some v) : v.Sound := by
    refine hsound (p ++ [.restore i] ++ q) v ?_ ?_
    · exact (List.prefix_append_right_inj _).mpr hq
    · rw [List.append_assoc, run_append, ht, Option.bind_some, List.singleton_append, run_cons hu]
      exact hv
  obtain ⟨hi, hs⟩ := Option.ite_none_right_eq_some.mp hu
  cases hs
  have hafter : (t.restore i).phase i = .after := Function.update_self ..
  by_cases hki : k = i
  · -- it puts back its own name
    subst hki
    have hnow := hpart [] _ List.nil_prefix rfl k hk.1
    rw [hafter] at hnow
    cases hnow
  · refine not_sound_of_remembers (s := t.restore i) ⟨hk.1, ?_⟩ hafter hrun hover hpart
    rw [phase_restore hki]
    exact hk.2

/-- All is sound exactly if nobody restores while another one remembers its name, when nobody is
left that is to restore. -/
theorem sound_iff (hrun : run .start h = some s') (hover : s'.Over) :
    SoundUntil .start h ↔ Yielding .start h :=
  ⟨fun hsound => hsound.yielding hrun hover, fun hyield => clean_start.soundUntil hyield⟩

end Run

end Swaps
