import Mathlib.Data.List.DropRight
import Mathlib.Data.List.Forall2

/-!
# Words

A line is words with blanks between them. What a blank is, is a parameter.

## The model

* `Words.next`, `Words.scan` — the next word, and the next words, each cut at a number of items.
* `Words.trim` — a line without the blanks around it.
* `Words.IsWord`, `Words.Blanks`, `Words.Ends` — a word, blanks, and what may follow a word.

## What is proved

* `Words.next_append` — a word that is there is found.
* `Words.isWord_next`, `Words.forall₂_scan` — what is found is a word.
* `Words.trim_append` — the blanks before and after are cut.
-/

namespace Words

variable {α : Type*} {blank : α → Bool} {n : ℕ} {x rest ws s : List α}

variable (blank) in
/-- A word of no more than `n` items. -/
structure IsWord (n : ℕ) (x : List α) : Prop where
  /-- It has an item. -/
  ne_nil : x ≠ []
  /-- It is not too long. -/
  length_le : x.length ≤ n
  /-- It has no blanks. -/
  solid : ∀ a ∈ x, blank a = false

variable (blank) in
/-- Blanks. -/
def Blanks (ws : List α) : Prop := ∀ a ∈ ws, blank a = true

variable (blank) in
/-- What may follow a word: nothing, or a blank. -/
def Ends (rest : List α) : Prop := ∀ a ∈ rest.head?, blank a = true

instance : Decidable (IsWord blank n x) :=
  decidable_of_iff (x ≠ [] ∧ x.length ≤ n ∧ ∀ a ∈ x, blank a = false)
    ⟨fun ⟨h, h', h''⟩ => ⟨h, h', h''⟩, fun ⟨h, h', h''⟩ => ⟨h, h', h''⟩⟩

instance : Decidable (Blanks blank ws) := inferInstanceAs (Decidable (∀ a ∈ ws, blank a = true))

instance : Decidable (Ends blank rest) :=
  inferInstanceAs (Decidable (∀ a ∈ rest.head?, blank a = true))

variable (blank) in
/-- The next word, of at most `n` items, and what follows. -/
def next (n : ℕ) (s : List α) : Option (List α × List α) :=
  match s.dropWhile blank with
  | [] => none
  | a :: s =>
    let x := ((a :: s).takeWhile (!blank ·)).take n
    some (x, (a :: s).drop x.length)

variable (blank) in
/-- The next words, of at most so many items. -/
def scan : List ℕ → List α → Option (List (List α))
  | [], _ => some []
  | n :: ns, s => (next blank n s).bind fun (x, s) => (scan ns s).map (x :: ·)

variable (blank) in
/-- The line without the blanks around it. -/
def trim (s : List α) : List α := (s.dropWhile blank).rdropWhile blank

theorem IsWord.head (h : IsWord blank n x) : ∀ a ∈ x.head?, blank a = false :=
  fun a ha => h.solid a (List.mem_of_mem_head? ha)

theorem IsWord.last (h : IsWord blank n x) : ∀ a ∈ x.getLast?, blank a = false :=
  fun a ha => h.solid a (List.mem_of_mem_getLast? ha)

theorem Blanks.ends (h : Blanks blank ws) (hne : ws ≠ []) (rest : List α) :
    Ends blank (ws ++ rest) := by
  cases ws with
  | nil => exact absurd rfl hne
  | cons a ws =>
    rintro b ⟨⟩
    exact h _ List.mem_cons_self

/-- What begins a word and what may follow it, and has no blank, begins the word. -/
theorem prefix_of_append (hx : ∀ a ∈ x, blank a = false) (hrest : Ends blank rest)
    (h : x <+: s ++ rest) : x <+: s := by
  obtain h | ⟨t, rfl⟩ := List.prefix_or_prefix_of_prefix h (List.prefix_append s rest)
  · exact h
  · cases t with
    | nil => exact (List.append_nil s).symm ▸ List.prefix_rfl
    | cons a t =>
      obtain ⟨u, hu⟩ := (List.prefix_append_right_inj s).mp h
      have ha : blank a = true := hrest a (by rw [← hu]; rfl)
      exact absurd (hx a (List.mem_append_right _ List.mem_cons_self)) (by simp [ha])

theorem dropWhile_blanks (hws : Blanks blank ws) (hs : ∀ a ∈ s.head?, blank a = false) :
    (ws ++ s).dropWhile blank = s := by
  induction ws with
  | nil =>
    cases s with
    | nil => rfl
    | cons a s => exact List.dropWhile_cons_of_neg (by simp [hs a rfl])
  | cons b ws ih =>
    rw [List.cons_append, List.dropWhile_cons_of_pos (hws b List.mem_cons_self)]
    exact ih fun a ha => hws a (List.mem_cons_of_mem _ ha)

theorem takeWhile_solid (hx : ∀ a ∈ x, blank a = false) (hrest : Ends blank rest) :
    (x ++ rest).takeWhile (!blank ·) = x := by
  induction x with
  | nil =>
    cases rest with
    | nil => rfl
    | cons a rest => exact List.takeWhile_cons_of_neg (by simp [hrest a rfl])
  | cons b x ih =>
    rw [List.cons_append, List.takeWhile_cons_of_pos (by simp [hx b List.mem_cons_self]),
      ih fun a ha => hx a (List.mem_cons_of_mem _ ha)]

/-- A word that is there is found, after blanks. -/
theorem next_append (hws : Blanks blank ws) (hx : IsWord blank n x) (hrest : Ends blank rest) :
    next blank n (ws ++ (x ++ rest)) = some (x, rest) := by
  obtain ⟨hne, hlen, hsolid⟩ := hx
  have htake := takeWhile_solid hsolid hrest
  unfold next
  cases x with
  | nil => exact absurd rfl hne
  | cons a x =>
    rw [dropWhile_blanks hws (by rintro b ⟨⟩; exact hsolid _ List.mem_cons_self)]
    rw [List.cons_append] at htake ⊢
    dsimp only
    rw [htake, List.take_of_length_le hlen, ← List.cons_append, List.drop_left]

/-- What is found is a word. -/
theorem isWord_next (h : next blank n s = some (x, rest)) (hn : 0 < n) : IsWord blank n x := by
  unfold next at h
  cases hs : s.dropWhile blank with
  | nil =>
    rw [hs] at h
    cases h
  | cons a s' =>
    rw [hs] at h
    cases h
    have ha : blank a = false := by
      have hhead := List.head?_dropWhile_not blank s
      rw [hs] at hhead
      simpa using hhead
    refine ⟨?_, List.length_take_le n _, fun b hb => ?_⟩
    · rw [List.takeWhile_cons_of_pos (by simp [ha])]
      obtain ⟨k, rfl⟩ := Nat.exists_eq_succ_of_ne_zero (Nat.ne_of_gt hn)
      exact List.cons_ne_nil _ _
    · have hb' := List.mem_takeWhile_imp (List.mem_of_mem_take hb)
      simpa using hb'

theorem scan_cons (h : next blank n s = some (x, rest)) (ns : List ℕ) :
    scan blank (n :: ns) s = (scan blank ns rest).map (x :: ·) := by
  rw [scan, h]
  rfl

theorem next_subset (h : next blank n s = some (x, rest)) : x ⊆ s ∧ rest ⊆ s := by
  unfold next at h
  have hdrop := (List.dropWhile_suffix blank (l := s)).subset
  cases hs : s.dropWhile blank with
  | nil =>
    rw [hs] at h
    cases h
  | cons a s' =>
    rw [hs] at h hdrop
    cases h
    exact ⟨fun b hb => hdrop ((List.takeWhile_prefix _).subset (List.mem_of_mem_take hb)),
      fun b hb => hdrop (List.mem_of_mem_drop hb)⟩

/-- What is scanned are words. -/
theorem forall₂_scan {ns : List ℕ} {xs : List (List α)} (h : scan blank ns s = some xs)
    (hns : ∀ n ∈ ns, 0 < n) :
    List.Forall₂ (fun n x => IsWord blank n x ∧ x ⊆ s) ns xs := by
  induction ns generalizing s xs with
  | nil =>
    cases h
    exact .nil
  | cons n ns ih =>
    rw [scan] at h
    obtain ⟨⟨x, rest⟩, hnext, h⟩ := Option.bind_eq_some_iff.mp h
    obtain ⟨xs, hscan, rfl⟩ := Option.map_eq_some_iff.mp h
    obtain ⟨hx, hrest⟩ := next_subset hnext
    have htail := ih hscan fun n hn => hns n (List.mem_cons_of_mem _ hn)
    exact .cons ⟨isWord_next hnext (hns n List.mem_cons_self), hx⟩
      (htail.imp fun _ _ h => ⟨h.1, fun _ ha => hrest (h.2 ha)⟩)

/-- What is cut from behind leaves a word behind a word. -/
theorem Ends.rdropWhile (h : Ends blank rest) : Ends blank (rest.rdropWhile blank) := by
  intro a ha
  obtain ⟨t, ht⟩ := List.rdropWhile_prefix blank (l := rest)
  cases hr : rest.rdropWhile blank with
  | nil =>
    rw [hr] at ha
    cases ha
  | cons b r =>
    rw [hr] at ha ht
    cases ha
    exact h a (by rw [← ht]; rfl)

theorem rdropWhile_append (hx : ∀ a ∈ x.getLast?, blank a = false) :
    (x ++ rest).rdropWhile blank = x ++ rest.rdropWhile blank := by
  induction rest using List.reverseRecOn with
  | nil =>
    rw [List.append_nil, List.rdropWhile_nil, List.append_nil, List.rdropWhile_eq_self_iff]
    intro hl
    simpa using hx _ (List.getLast?_eq_some_getLast hl)
  | append_singleton rest a ih =>
    rw [← List.append_assoc, List.rdropWhile_concat, List.rdropWhile_concat, ih]
    split_ifs
    · rfl
    · rw [List.append_assoc]

/-- The blanks before and after are cut. -/
theorem trim_append (hws : Blanks blank ws) (hne : x ≠ []) (hhead : ∀ a ∈ x.head?, blank a = false)
    (hlast : ∀ a ∈ x.getLast?, blank a = false) (rest : List α) :
    trim blank (ws ++ (x ++ rest)) = x ++ rest.rdropWhile blank := by
  rw [trim, dropWhile_blanks hws, rdropWhile_append hlast]
  cases x with
  | nil => exact absurd rfl hne
  | cons a x => exact hhead

theorem trim_blanks (hws : Blanks blank ws) : trim blank ws = [] := by
  rw [trim, List.dropWhile_eq_nil_iff.mpr hws, List.rdropWhile_nil]

theorem trim_subset : trim blank s ⊆ s := fun _ ha =>
  (List.dropWhile_suffix blank).subset ((List.rdropWhile_prefix blank _).subset ha)

theorem trim_concat {a : α} (ha : blank a = true) : trim blank (s ++ [a]) = trim blank s := by
  unfold trim
  by_cases hs : ∀ b ∈ s, blank b = true
  · rw [List.dropWhile_eq_nil_iff.mpr hs, List.dropWhile_eq_nil_iff.mpr]
    intro b hb
    rcases List.mem_append.mp hb with hb | hb
    · exact hs b hb
    · rw [List.mem_singleton.mp hb]
      exact ha
  · have hne : s.dropWhile blank ≠ [] := fun h => hs (List.dropWhile_eq_nil_iff.mp h)
    have hisEmpty : (s.dropWhile blank).isEmpty = false := by simpa using hne
    rw [List.dropWhile_append, hisEmpty]
    exact List.rdropWhile_concat_pos _ _ _ ha

end Words
