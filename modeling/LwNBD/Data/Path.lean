import Mathlib.Data.List.Basic
import Mathlib.Tactic.SplitIfs

/-!
# Paths

A path is a string of components between slashes, which is walked component by component from the
root, if the string begins with a slash, or from the working directory. The empty component and `.`
stay, and `..` goes up.

## The model

* `FileSystem` — directories and their entries. An entry that is a symbolic link is what the link
  leads to, so the parent of an entry need not be the directory that the entry is of.
* `FileSystem.resolve`, `FileSystem.Designates` — what a path leads to.
* `join`, `IsName` — the path that is made of directories and the name of a file.
* `Here` — the directories of a path that stay where they start.

## What is proved

* `resolve_join` — a path is walked as it was made.
* `designates_name_iff` — a path designates the file that its last component does, whatever the file
  system, exactly if it stays in the working directory.
-/

namespace Path

/-- What is between the components. -/
def slash : UInt8 := '/'.toUInt8

/-- `.`, this directory. -/
def dot : List UInt8 := ['.'.toUInt8]

/-- `..`, the parent. -/
def dotdot : List UInt8 := ['.'.toUInt8, '.'.toUInt8]

/-! ### File systems -/

/-- Directories and files. -/
structure FileSystem where
  /-- Directories. -/
  Dir : Type
  /-- Files. -/
  File : Type
  /-- The root. -/
  root : Dir
  /-- The working directory. -/
  cwd : Dir
  /-- The directory that a directory is in. -/
  parent : Dir → Dir
  /-- The entry of that name. -/
  entry : Dir → List UInt8 → Option (Dir ⊕ File)

/-- A component that does not lead away. -/
def Stays (c : List UInt8) : Prop := c = [] ∨ c = dot

instance (c : List UInt8) : Decidable (Stays c) := inferInstanceAs (Decidable (_ ∨ _))

namespace FileSystem

variable (fs : FileSystem)

/-- Where a component leads to. There is nothing in a file. -/
def step : fs.Dir ⊕ fs.File → List UInt8 → Option (fs.Dir ⊕ fs.File)
  | .inr _, _ => none
  | .inl d, c =>
    if Stays c then some (.inl d) else if c = dotdot then some (.inl (fs.parent d))
    else fs.entry d c

theorem step_dir (d : fs.Dir) (c : List UInt8) : fs.step (.inl d) c =
    if Stays c then some (.inl d) else if c = dotdot then some (.inl (fs.parent d))
    else fs.entry d c := rfl

/-- Where components lead to, one after the other. -/
def walk (n : fs.Dir ⊕ fs.File) (cs : List (List UInt8)) : Option (fs.Dir ⊕ fs.File) :=
  cs.foldlM fs.step n

/-- Where a path leads to. The empty path leads nowhere. -/
def resolve (path : List UInt8) : Option (fs.Dir ⊕ fs.File) :=
  if path = [] then none
  else fs.walk (.inl (if path.head? = some slash then fs.root else fs.cwd)) (path.splitOn slash)

/-- The path leads to the file. -/
def Designates (path : List UInt8) (f : fs.File) : Prop := fs.resolve path = some (.inr f)

end FileSystem

/-! ### Making a path -/

/-- The name of a file in a directory. -/
structure IsName (name : List UInt8) : Prop where
  /-- It leads somewhere. -/
  stays : ¬ Stays name
  /-- It does not lead up. -/
  dotdot : name ≠ dotdot
  /-- It is one component. -/
  slash : slash ∉ name

/-- `dir/dir/…/name`. -/
def join (dirs : List (List UInt8)) (name : List UInt8) : List UInt8 :=
  [slash].intercalate (dirs ++ [name])

/-- The directories stay in the working directory. -/
structure Here (dirs : List (List UInt8)) : Prop where
  /-- The path does not begin with a slash. -/
  relative : dirs.head? ≠ some []
  /-- They stay. -/
  stays : ∀ c ∈ dirs, Stays c

section Join

variable {dirs : List (List UInt8)} {name : List UInt8}

@[simp] theorem join_nil : join [] name = name := List.intercalate_singleton

theorem join_cons (c : List UInt8) : join (c :: dirs) name = c ++ slash :: join dirs name := by
  cases dirs with
  | nil => simp [join]
  | cons d dirs => simp [join, List.intercalate_cons_cons]

theorem splitOn_join (hdirs : ∀ c ∈ dirs, slash ∉ c) (hname : IsName name) :
    (join dirs name).splitOn slash = dirs ++ [name] := by
  refine List.splitOn_intercalate _ (fun c hc => ?_) (by simp)
  obtain h | h := List.mem_append.mp hc
  · exact hdirs c h
  · rw [List.mem_singleton.mp h]
    exact hname.slash

theorem join_ne_nil (hname : IsName name) : join dirs name ≠ [] := by
  cases dirs with
  | nil =>
    rw [join_nil]
    exact fun h => hname.stays (.inl h)
  | cons c dirs => simp [join_cons]

theorem head?_join (hdirs : ∀ c ∈ dirs, slash ∉ c) (hname : IsName name) :
    (join dirs name).head? = some slash ↔ dirs.head? = some [] := by
  have hhead (b : List UInt8) (hb : slash ∉ b) : b.head? ≠ some slash :=
    fun h => hb (List.mem_of_head? h)
  cases dirs with
  | nil => simpa using hhead name hname.slash
  | cons c dirs =>
    have hc := hhead c (hdirs c List.mem_cons_self)
    rw [join_cons]
    cases c with
    | nil => simp
    | cons x c => simpa using hc

variable {fs : FileSystem}

/-- A path is walked as it was made. -/
theorem resolve_join (hdirs : ∀ c ∈ dirs, slash ∉ c) (hname : IsName name) :
    fs.resolve (join dirs name) =
    fs.walk (.inl (if dirs.head? = some [] then fs.root else fs.cwd)) (dirs ++ [name]) := by
  rw [FileSystem.resolve, if_neg (join_ne_nil hname), splitOn_join hdirs hname]
  simp only [head?_join hdirs hname]

/-- A name is looked up in the working directory. -/
theorem resolve_name (hname : IsName name) : fs.resolve name = fs.entry fs.cwd name := by
  have h : fs.resolve (join [] name) = _ := resolve_join (by simp) hname
  rw [join_nil] at h
  simp [h, FileSystem.walk, FileSystem.step, hname.stays, hname.dotdot]

/-! ### Where a path leads, whatever the file system -/

theorem walk_stays {d : fs.Dir} {cs : List (List UInt8)} (h : ∀ c ∈ dirs, Stays c) :
    fs.walk (.inl d) (dirs ++ cs) = fs.walk (.inl d) cs := by
  induction dirs with
  | nil => rfl
  | cons c dirs ih =>
    rw [← ih fun c hc => h c (.tail _ hc)]
    simp [FileSystem.walk, FileSystem.step, h c List.mem_cons_self]

/-- In the working directory only the name counts. -/
theorem Here.resolve_join (h : Here dirs) (hdirs : ∀ c ∈ dirs, slash ∉ c) (hname : IsName name) :
    fs.resolve (join dirs name) = fs.resolve name := by
  have hnil : fs.resolve (join [] name) = _ := Path.resolve_join (by simp) hname
  rw [join_nil] at hnil
  rw [Path.resolve_join hdirs hname, if_neg h.relative, walk_stays h.stays, hnil]
  rfl

end Join

/-- A file system for one path: a directory is what is left to be walked from it, if it is on the
path. -/
def trail (absolute : Bool) (todo : List (List UInt8)) : FileSystem where
  Dir := Option (List (List UInt8))
  File := Unit
  root := if absolute then some todo else none
  cwd := if absolute then none else some todo
  parent := Option.map List.tail
  entry
    | some (n :: rest), c =>
      if c = n then some (if rest = [] then .inr () else .inl (some rest)) else none
    | _, _ => none

section Trail

variable {dirs : List (List UInt8)} {name : List UInt8} {absolute : Bool} {todo : List (List UInt8)}

theorem entry_trail {d : (trail absolute todo).Dir} {c : List UInt8}
    (h : (trail absolute todo).entry d c = some (.inr ())) : d = some [c] := by
  cases d with
  | none => cases h
  | some cs =>
    cases cs with
    | nil => cases h
    | cons n rest =>
      simp only [trail] at h
      split_ifs at h with hc hrest
      · rw [hc, hrest]
      · cases h

theorem walk_trail (hname : IsName name) (d : (trail absolute todo).Dir)
    (hd : d = some (dirs.filter (¬ Stays ·) ++ [name])) :
    (trail absolute todo).walk (.inl d) (dirs ++ [name]) = some (.inr ()) := by
  induction dirs generalizing d with
  | nil =>
    rw [FileSystem.walk, List.nil_append, List.foldlM_cons, FileSystem.step_dir, if_neg hname.stays,
      if_neg hname.dotdot, hd]
    simp [trail]
  | cons c dirs ih =>
    rw [FileSystem.walk, List.cons_append, List.foldlM_cons, FileSystem.step_dir]
    by_cases hc : Stays c
    · rw [if_pos hc]
      exact ih d (by rw [hd, List.filter_cons_of_neg (by simpa using hc)])
    · rw [List.filter_cons_of_pos (by simpa using hc), List.cons_append] at hd
      rw [if_neg hc]
      have hentry : (trail absolute todo).entry d c =
          some (.inl (some (dirs.filter (¬ Stays ·) ++ [name]))) := by
        simp [hd, trail]
      split_ifs with hup
      · exact ih _ (by rw [hd]; rfl)
      · rw [hentry]
        exact ih _ rfl

/-- A path that leads where its last component does stays in the working directory. -/
theorem here_of_designates (hdirs : ∀ c ∈ dirs, slash ∉ c) (hname : IsName name)
    (h : ∀ (fs : FileSystem) (f : fs.File), fs.Designates (join dirs name) f →
      fs.Designates name f) : Here dirs := by
  have hlast (absolute : Bool) (habs : absolute = true ↔ dirs.head? = some []) :
      (trail absolute (dirs.filter (¬ Stays ·) ++ [name])).cwd = some [name] := by
    have hdes : (trail absolute (dirs.filter (¬ Stays ·) ++ [name])).resolve (join dirs name) =
        some (.inr ()) →
      (trail absolute (dirs.filter (¬ Stays ·) ++ [name])).resolve name = some (.inr ()) :=
        h (trail absolute _) ()
    rw [resolve_join hdirs hname, resolve_name hname] at hdes
    refine entry_trail (hdes (walk_trail hname _ ?_))
    split_ifs with hhead
    · exact if_pos (habs.mpr hhead)
    · exact if_neg (mt habs.mp hhead)
  have hrel : dirs.head? ≠ some [] := fun habs => by
    have hcwd := hlast true (iff_of_true rfl habs)
    cases hcwd
  have hcwd : some (dirs.filter (¬ Stays ·) ++ [name]) = some [name] :=
    hlast false (iff_of_false Bool.false_ne_true hrel)
  have hnone : dirs.filter (¬ Stays ·) = [] := List.append_left_eq_self.mp (Option.some.inj hcwd)
  exact ⟨hrel, fun c hc => by simpa using List.filter_eq_nil_iff.mp hnone c hc⟩

end Trail

/-- A path designates the file that its last component does, whatever the file system, exactly if it
stays in the working directory. -/
theorem designates_name_iff {dirs : List (List UInt8)} {name : List UInt8}
    (hdirs : ∀ c ∈ dirs, slash ∉ c) (hname : IsName name) :
    (∀ (fs : FileSystem) (f : fs.File), fs.Designates (join dirs name) f → fs.Designates name f) ↔
    Here dirs := by
  refine ⟨here_of_designates hdirs hname, fun h fs f hpath => ?_⟩
  rwa [FileSystem.Designates, h.resolve_join hdirs hname] at hpath

end Path
