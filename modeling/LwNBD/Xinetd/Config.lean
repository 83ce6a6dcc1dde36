import LwNBD.Core.Types
import LwNBD.Data.Words
import LwNBD.Plugins.Query

/-!
# The configuration of the service daemon

`examples/mini-xinetd.c`: the daemon reads its services from a file. A service is a block of lines,

    service name {
        port = 10809
        server = nbd
    }

with blank lines and comments anywhere, and any blanks around the words. Lines that say something
else are skipped.

## The model

* `parseConfig` — `parse_config`, line by line, with `trim` and what it uses of the C library:
  `fgets`, `sscanf`, `atoi`. What has no meaning is `.undefined`: to store a service that was never
  begun or for which there is no place, and a number that is not of type `int`.
* `IsLine`, `IsText` — what a line says, and what a file says, whatever its layout.
* `Block` — a service as it is written down; `Block.service` — the service that it describes.

## What is proved

* `configLine_eq` — what is made of a line is what it says.
* `config_round_trip` — a file with the blocks of at most `MAX_SERVICES` services is read as these
  services, and one with more overruns the table.
* `config_well_formed` — whatever the file, the services that are read are well formed.
-/

namespace LwNBD.Xinetd

open Words

/-! ### The C library -/

/-- `isspace`. -/
def isspace (c : UInt8) : Bool := c = 32 ∨ 9 ≤ c ∧ c ≤ 13

/-- The newline. -/
def newline : UInt8 := 10

/-- `fgets`, into an array of `size` bytes: the line, and what is left of the file. -/
def fgets (size : ℕ) (file : Bytes) : Bytes × Bytes :=
  let line :=
    (file.takeWhile (· ≠ newline) ++ (file.dropWhile (· ≠ newline)).take 1).take (size - 1)
  (line, file.drop line.length)

/-- The bytes of an array up to the first `NUL`. -/
def cString (a : Bytes) : Bytes := a.takeWhile (· ≠ 0)

/-- The number that digits stand for. -/
def digits (s : Bytes) : ℤ := s.foldl (fun n c => n * 10 + (c.toNat - 48)) 0

/-- A decimal digit. -/
def isdigit (c : UInt8) : Bool := 48 ≤ c ∧ c ≤ 57

/-- `atoi`; none when the number is not of type `int`. -/
def atoi (s : Bytes) : Option ℤ :=
  let s := s.dropWhile isspace
  let n := match s with
    | 45 :: s => -digits (s.takeWhile isdigit)
    | 43 :: s => digits (s.takeWhile isdigit)
    | s => digits (s.takeWhile isdigit)
  if -2 ^ 31 ≤ n ∧ n < 2 ^ 31 then some n else none

/-! ### The parser -/

/-- `MAX_SERVICES`. -/
def MAX_SERVICES : ℕ := 32

/-- `MAX_LINE`. -/
def MAX_LINE : ℕ := 512

/-- `service_t`, without the descriptor, which is set later. -/
structure Service where
  /-- `name`. -/
  name : Bytes
  /-- `port`. -/
  port : ℤ
  /-- `server`. -/
  server : Bytes
  deriving DecidableEq

/-- How `parse_config` may end the daemon. -/
inductive ConfigHalt where
  /-- `die("fopen config")`. -/
  | fopenConfig
  /-- `"bad service decl"`. -/
  | badServiceDecl
  /-- What is done has no meaning. -/
  | undefined
  deriving DecidableEq

/-- The variables of `parse_config`. -/
structure ParseState where
  /-- `current`; none until it is set. -/
  current : Option Service
  /-- `in`. -/
  isIn : Bool
  /-- `services`, up to `service_count`. -/
  services : List Service
  deriving DecidableEq

/-- The variables at the start. -/
def ParseState.start : ParseState := ⟨none, false, []⟩

/-- `memset(&current, 0, sizeof(current))` and `strcpy(current.name, name)`. -/
def ParseState.begin (st : ParseState) (name : Bytes) : ParseState :=
  { st with current := some ⟨name, 0, []⟩, isIn := true }

/-- `services[service_count++] = current`. -/
def ParseState.store (st : ParseState) : Except ConfigHalt ParseState :=
  match st.current with
  | none => .error .undefined
  | some current =>
    if st.services.length < MAX_SERVICES then .ok { st with isIn := false, services :=
      st.services ++ [current] }
    else .error .undefined

/-- What is done with a key and its value. -/
def ParseState.set (st : ParseState) (key value : Bytes) : Except ConfigHalt ParseState :=
  if key = literal "port" then
    match atoi value with
    | none => .error .undefined
    | some n => .ok { st with current := st.current.map fun s => { s with port := n } }
  else if key = literal "server" then .ok { st with current := st.current.map fun s =>
    { s with server := value } }
  else .ok st

/-- What is done with a line. -/
def configLine (st : ParseState) (line : Bytes) : Except ConfigHalt ParseState :=
  let p := trim isspace (cString line)
  if p = [] ∨ p.head? = '#'.toUInt8 then .ok st
  else if (literal "service").isPrefixOf p then
    -- `"service %63s %7s"`
    match scan isspace [63, 7] (p.drop 7) with
    | some [name, _] => .ok (st.begin name)
    | _ => .error .badServiceDecl
  else if p = literal "\x7d" then st.store
  else if st.isIn then
    match scan isspace [63, 3, 255] p with
    | some [key, _, value] => st.set key value
    | _ => .ok st
  else .ok st

/-- The loop of `parse_config`, for at most so many lines. -/
def configLoop : ℕ → ParseState → Bytes → Except ConfigHalt (List Service)
  | _, st, [] => .ok st.services
  | 0, st, _ => .ok st.services
  | n + 1, st, file => do
    let (line, file) := fgets MAX_LINE file
    configLoop n (← configLine st line) file

/-- `parse_config`: the services. A file has no more lines than bytes. -/
def parseConfig (file : Option Bytes) : Except ConfigHalt (List Service) :=
  match file with
  | none => .error .fopenConfig
  | some file => configLoop file.length .start file

/-! ### What is written in a file -/

/-- What a line says. -/
inductive Item where
  /-- Nothing. -/
  | nothing
  /-- A service begins. -/
  | service (name : Bytes)
  /-- A setting of the service. -/
  | setting (key value : Bytes)
  /-- The service ends. -/
  | close
  deriving DecidableEq

/-- What may follow the words of a line. -/
def Rest (rest : Bytes) : Prop := Ends isspace rest ∧ 0 ∉ rest

/-- Blanks between words. -/
def Gap (ws : Bytes) : Prop := Blanks isspace ws ∧ ws ≠ []

/-- A word that can be a key: no comment begins with it, and no service. -/
structure IsKey (key : Bytes) : Prop extends IsWord isspace 63 key where
  /-- It is no comment. -/
  comment : key.head? ≠ '#'.toUInt8
  /-- It is no service. -/
  service : ¬ literal "service" <+: key
  /-- It has no `NUL`. -/
  nul : 0 ∉ key

instance {ws : Bytes} : Decidable (Gap ws) := inferInstanceAs (Decidable (_ ∧ _))

instance {rest : Bytes} : Decidable (Rest rest) := inferInstanceAs (Decidable (_ ∧ _))

/-- What a line says, however it is laid out. -/
inductive IsLine : Bytes → Item → Prop where
  /-- A blank line. -/
  | blank {ws : Bytes} : Blanks isspace ws → IsLine ws .nothing
  /-- A comment. -/
  | comment {ws text : Bytes} : Blanks isspace ws → 0 ∉ text →
      IsLine (ws ++ '#'.toUInt8 :: text) .nothing
  /-- `service name {`. -/
  | service {ws ws₁ ws₂ name rest : Bytes} : Blanks isspace ws → Gap ws₁ → Gap ws₂ →
      IsWord isspace 63 name → 0 ∉ name → Rest rest →
      IsLine (ws ++ (literal "service" ++ ws₁ ++ name ++ ws₂ ++ literal "\x7b" ++ rest))
        (.service name)
  /-- `key = value`. -/
  | setting {ws ws₁ ws₂ key value rest : Bytes} : Blanks isspace ws → Gap ws₁ → Gap ws₂ →
      IsKey key → IsWord isspace 255 value → 0 ∉ value → Rest rest →
      IsLine (ws ++ (key ++ ws₁ ++ literal "=" ++ ws₂ ++ value ++ rest)) (.setting key value)
  /-- `}`. -/
  | close {ws ws' : Bytes} : Blanks isspace ws → Blanks isspace ws' →
      IsLine (ws ++ (literal "\x7d" ++ ws')) .close

/-- What a file says, line by line. The last line may have no newline. -/
inductive IsText : Bytes → List Item → Prop where
  /-- There is no line. -/
  | nil : IsText [] []
  /-- A last line without a newline. -/
  | last {line : Bytes} {item : Item} : IsLine line item → newline ∉ line → line ≠ [] →
      line.length < MAX_LINE → IsText line [item]
  /-- A line, and the others. -/
  | line {line file : Bytes} {item : Item} {items : List Item} : IsLine line item →
      newline ∉ line → line.length + 1 < MAX_LINE → IsText file items →
      IsText (line ++ newline :: file) (item :: items)

/-- What is done with what a line says. -/
def Item.apply (st : ParseState) : Item → Except ConfigHalt ParseState
  | .nothing => .ok st
  | .service name => .ok (st.begin name)
  | .setting key value => if st.isIn then st.set key value else .ok st
  | .close => st.store

/-! ### Lines -/

section Lines

variable {line ws ws₁ ws₂ rest key value name p : Bytes} {item : Item} {st : ParseState}

theorem nul_of_blanks (h : Blanks isspace ws) : 0 ∉ ws := fun h0 => absurd (h 0 h0) (by decide)

theorem cString_eq (h : 0 ∉ line) : cString line = line :=
  List.takeWhile_eq_self_iff.mpr fun c hc => by simpa using fun h0 : c = 0 => h (h0 ▸ hc)

theorem isWord_brace : IsWord isspace 7 (literal "\x7b") := by decide

theorem isWord_end : IsWord isspace 1 (literal "\x7d") := by decide

theorem isWord_eq : IsWord isspace 3 (literal "=") := by decide

theorem isWord_hash : IsWord isspace 1 ['#'.toUInt8] := by decide

theorem isWord_service : IsWord isspace 7 (literal "service") := by decide

theorem IsLine.nul (h : IsLine line item) : 0 ∉ line := by
  cases h with
  | blank hws => exact nul_of_blanks hws
  | comment hws htext =>
    have hliteral : '#'.toUInt8 ≠ 0 := by decide
    simp [nul_of_blanks hws, htext, hliteral.symm]
  | service hws hws₁ hws₂ hname hnul hrest =>
    have hliteral : (0 : UInt8) ∉ literal "service" ∧ 0 ∉ literal "\x7b" := by decide
    simp [nul_of_blanks hws, nul_of_blanks hws₁.1, nul_of_blanks hws₂.1, hnul, hrest.2, hliteral]
  | setting hws hws₁ hws₂ hkey hvalue hnul hrest =>
    have hliteral : (0 : UInt8) ∉ literal "=" := by decide
    simp [nul_of_blanks hws, nul_of_blanks hws₁.1, nul_of_blanks hws₂.1, hkey.nul,
      hnul, hrest.2, hliteral]
  | close hws hws' =>
    have hliteral : (0 : UInt8) ∉ literal "\x7d" := by decide
    simp [nul_of_blanks hws, nul_of_blanks hws', hliteral]

theorem configLine_concat (h : 0 ∉ line) :
    configLine st (line ++ [newline]) = configLine st line := by
  have h' : 0 ∉ line ++ [newline] := by simp [h, newline]
  unfold configLine
  rw [cString_eq h, cString_eq h', trim_concat (by decide)]

theorem scan_service (hws₁ : Gap ws₁) (hws₂ : Gap ws₂) (hname : IsWord isspace 63 name)
    (hrest : Ends isspace rest) :
    scan isspace [63, 7] (ws₁ ++ (name ++ (ws₂ ++ (literal "\x7b" ++ rest)))) =
    some [name, literal "\x7b"] := by
  rw [scan_cons (next_append hws₁.1 hname (hws₂.1.ends hws₂.2 _)),
    scan_cons (next_append hws₂.1 isWord_brace hrest)]
  rfl

theorem scan_setting (hws₁ : Gap ws₁) (hws₂ : Gap ws₂) (hkey : IsWord isspace 63 key)
    (hvalue : IsWord isspace 255 value) (hrest : Ends isspace rest) :
    scan isspace [63, 3, 255] (key ++ (ws₁ ++ (literal "=" ++ (ws₂ ++ (value ++ rest))))) =
      some [key, literal "=", value] := by
  have hblanks : Blanks isspace [] := fun _ h => absurd h List.not_mem_nil
  have hfirst := next_append hblanks hkey
    (hws₁.1.ends hws₁.2 (literal "=" ++ (ws₂ ++ (value ++ rest))))
  rw [List.nil_append] at hfirst
  rw [scan_cons hfirst, scan_cons (next_append hws₁.1 isWord_eq (hws₂.1.ends hws₂.2 _)),
    scan_cons (next_append hws₂.1 hvalue hrest)]
  rfl

/-- What is made of a line is what it says. -/
theorem configLine_eq (h : IsLine line item) : configLine st line = item.apply st := by
  have hnul := h.nul
  unfold configLine
  rw [cString_eq hnul]
  cases h with
  | blank hws =>
    rw [trim_blanks hws]
    rfl
  | @comment ws text hws htext =>
    have htrim := trim_append hws isWord_hash.ne_nil isWord_hash.head isWord_hash.last text
    rw [List.singleton_append] at htrim
    rw [htrim]
    exact if_pos (.inr rfl)
  | @service ws ws₁ ws₂ name rest hws hws₁ hws₂ hname hnul hrest =>
    have hlast : (literal "service" ++ ws₁ ++ name ++ ws₂ ++ literal "\x7b").getLast? =
        some 123 := by
      rw [List.getLast?_append]
      rfl
    have htrim :=
      trim_append hws (x := literal "service" ++ ws₁ ++ name ++ ws₂ ++ literal "\x7b")
      (by simp [literal]) (by rintro a ⟨⟩; decide) (by rw [hlast]; rintro a ⟨⟩; decide) rest
    have hs : 's'.toUInt8 ≠ '#'.toUInt8 := by decide
    rw [htrim]
    simp only [List.append_assoc]
    have hscan := scan_service hws₁ hws₂ hname hrest.1.rdropWhile
    rw [if_neg (not_or.mpr ⟨by simp [literal], by simp [literal, hs]⟩), if_pos (by simp),
      List.drop_left' (by decide), hscan]
    rfl
  | @setting ws ws₁ ws₂ key value rest hws hws₁ hws₂ hkey hvalue hnul hrest =>
    obtain ⟨a, key', rfl⟩ := List.exists_cons_of_ne_nil hkey.ne_nil
    have htrim := trim_append hws (x := (a :: key') ++ ws₁ ++ literal "=" ++ ws₂ ++ value) (by simp)
      (by rintro b ⟨⟩; exact hkey.head _ rfl) (by
        intro b hb
        rw [List.getLast?_append_of_ne_nil _ hvalue.ne_nil] at hb
        exact hvalue.last b hb) rest
    rw [htrim]
    simp only [List.append_assoc]
    have hscan := scan_setting hws₁ hws₂ hkey.toIsWord hvalue hrest.1.rdropWhile
    have hne :
        (a :: key') ++ (ws₁ ++ (literal "=" ++ (ws₂ ++ (value ++ rest.rdropWhile isspace)))) ≠ [] :=
      List.cons_ne_nil _ _
    have hcomment :
        ((a :: key') ++ (ws₁ ++ (literal "=" ++
        (ws₂ ++ (value ++ rest.rdropWhile isspace))))).head? ≠ '#'.toUInt8 := hkey.comment
    have hservice : ¬ literal "service" <+: (a :: key') ++ (ws₁ ++ (literal "=" ++ (ws₂ ++ (value ++
        rest.rdropWhile isspace)))) :=
      fun hprefix =>
        hkey.service (prefix_of_append isWord_service.solid (hws₁.1.ends hws₁.2 _) hprefix)
    have hclose : (a :: key') ++
        (ws₁ ++ (literal "=" ++ (ws₂ ++ (value ++ rest.rdropWhile isspace)))) ≠ literal "\x7d" := by
      intro h
      have hlen := congrArg List.length h
      have hone : (literal "\x7d").length = 1 := by decide
      have heq : (literal "=").length = 1 := by decide
      simp only [List.length_append, List.length_cons, hone, heq] at hlen
      omega
    rw [if_neg (not_or.mpr ⟨hne, hcomment⟩), if_neg (mt List.isPrefixOf_iff_prefix.mp hservice),
      if_neg hclose, hscan]
    rfl
  | @close ws ws' hws hws' =>
    have htrim := trim_append hws isWord_end.ne_nil isWord_end.head isWord_end.last ws'
    rw [htrim, List.rdropWhile_eq_nil_iff.mpr hws']
    rfl

end Lines

/-! ### Files -/

section Files

variable {line file : Bytes} {item : Item} {items : List Item} {st : ParseState} {size n : ℕ}

theorem fgets_line (h : newline ∉ line) (hlen : line.length + 1 < size) :
    fgets size (line ++ newline :: file) = (line ++ [newline], file) := by
  have hall : ∀ c ∈ line, decide (c ≠ newline) = true :=
    fun c hc => decide_eq_true fun heq => h (heq ▸ hc)
  have htake : (line ++ newline :: file).takeWhile (· ≠ newline) = line := by
    rw [List.takeWhile_append_of_pos hall, List.takeWhile_cons_of_neg (by simp), List.append_nil]
  have hdrop : (line ++ newline :: file).dropWhile (· ≠ newline) = newline :: file := by
    rw [List.dropWhile_append_of_pos hall, List.dropWhile_cons_of_neg (by simp)]
  have hlen' : (line ++ [newline]).length ≤ size - 1 := by
    rw [List.length_append, List.length_singleton]
    omega
  unfold fgets
  rw [htake, hdrop, List.take_succ_cons, List.take_zero, List.take_of_length_le hlen']
  simp

theorem fgets_last (h : newline ∉ line) (hlen : line.length < size) :
    fgets size line = (line, []) := by
  have hall : ∀ c ∈ line, decide (c ≠ newline) = true :=
    fun c hc => decide_eq_true fun heq => h (heq ▸ hc)
  unfold fgets
  rw [List.takeWhile_eq_self_iff.mpr hall, List.dropWhile_eq_nil_iff.mpr hall,
    List.take_nil, List.append_nil,
    List.take_of_length_le (Nat.le_sub_one_of_lt hlen)]
  exact Prod.ext rfl List.drop_length

theorem configLoop_succ {file' : Bytes} (h : fgets MAX_LINE file = (line, file'))
    (hne : file ≠ []) :
    configLoop (n + 1) st file = (configLine st line).bind (configLoop n · file') := by
  rw [configLoop.eq_3 _ _ _ hne, h]
  rfl

/-- What is made of a file is what it says, line by line. -/
theorem configLoop_eq (h : IsText file items) (hn : file.length ≤ n) :
    configLoop n st file = (items.foldlM Item.apply st).map ParseState.services := by
  induction h generalizing n st with
  | nil =>
    rw [configLoop]
    rfl
  | @last line item hline hnew hne hlen =>
    obtain ⟨n, rfl⟩ :=
      Nat.exists_eq_succ_of_ne_zero (Nat.ne_of_gt (lt_of_lt_of_le (List.length_pos_iff.mpr hne) hn))
    rw [configLoop_succ (fgets_last hnew hlen) hne, configLine_eq hline, List.foldlM_cons]
    cases item.apply st with
    | error _ => rfl
    | ok st =>
      change configLoop n st [] = _
      rw [configLoop]
      rfl
  | @line line file item items hline hnew hlen _ ih =>
    have hn' : file.length + 1 ≤ n := by
      rw [List.length_append, List.length_cons] at hn
      omega
    obtain ⟨n, rfl⟩ :=
      Nat.exists_eq_succ_of_ne_zero (Nat.ne_of_gt (lt_of_lt_of_le (Nat.succ_pos _) hn'))
    rw [configLoop_succ (fgets_line hnew hlen) (by simp), configLine_concat hline.nul,
      configLine_eq hline, List.foldlM_cons]
    cases item.apply st with
    | error _ => rfl
    | ok st => exact ih (Nat.le_of_succ_le_succ hn')

end Files

/-! ### Services -/

/-- A service as it is written down. -/
structure Block where
  /-- Its name. -/
  name : Bytes
  /-- Its settings. -/
  settings : List (Bytes × Bytes)

/-- What the lines of a service say. -/
def Block.items (b : Block) : List Item :=
  .service b.name :: (b.settings.map fun kv => .setting kv.1 kv.2) ++ [.close]

/-- The last value that a setting has. -/
def Block.value (b : Block) (key : String) : Option Bytes := b.settings.reverse.lookup (literal key)

/-- The service that is described: a later setting overrides an earlier one, and other settings have
no effect. -/
def Block.service (b : Block) : Service where
  name := b.name
  port := ((b.value "port").bind atoi).getD 0
  server := (b.value "server").getD []

/-- Every port is a number of type `int`. -/
def Block.Ok (b : Block) : Prop := ∀ kv ∈ b.settings, kv.1 = literal "port" → (atoi kv.2).isSome

instance {b : Block} : Decidable b.Ok := inferInstanceAs (Decidable (∀ kv ∈ b.settings, _))

section Blocks

variable {b : Block} {blocks : List Block} {ss : List Service} {items : List Item} {st : ParseState}

theorem foldlM_filter :
    (items.filter (· ≠ .nothing)).foldlM Item.apply st = items.foldlM Item.apply st := by
  induction items generalizing st with
  | nil => rfl
  | cons item items ih =>
    by_cases h : item = .nothing
    · subst h
      rw [List.filter_cons_of_neg (by simp), ih]
      rfl
    · rw [List.filter_cons_of_pos (by simpa using h), List.foldlM_cons, List.foldlM_cons]
      exact congrArg _ (funext fun _ => ih)

theorem set_eq {kv : Bytes × Bytes} {settings : List (Bytes × Bytes)} {name : Bytes}
    (h : kv.1 = literal "port" → (atoi kv.2).isSome) :
    ParseState.set ⟨some (Block.service ⟨name, settings⟩), true, ss⟩ kv.1 kv.2 =
      .ok ⟨some (Block.service ⟨name, settings ++ [kv]⟩), true, ss⟩ := by
  obtain ⟨key, v⟩ := kv
  have hserver : (literal "server" == literal "port") = false := by decide
  have hvalue (k : String) : Block.value ⟨name, settings ++ [(key, v)]⟩ k =
      bif literal k == key then some v else Block.value ⟨name, settings⟩ k := by
    unfold Block.value
    rw [List.reverse_append, List.reverse_singleton, List.singleton_append, List.lookup_cons]
    cases literal k == key <;> rfl
  unfold ParseState.set Block.service
  rw [hvalue, hvalue]
  by_cases hport : key = literal "port"
  · subst hport
    obtain ⟨n, hn⟩ := Option.isSome_iff_exists.mp (h rfl)
    simp [hn, hserver]
  · have hport' : (literal "port" == key) = false := by simpa using Ne.symm hport
    by_cases hserver : key = literal "server"
    · subst hserver
      simp [hport, hport']
    · have hserver' : (literal "server" == key) = false := by simpa using Ne.symm hserver
      simp [hport, hserver, hport', hserver']

theorem foldlM_settings {name : Bytes} {settings : List (Bytes × Bytes)}
    (hok : Block.Ok ⟨name, settings⟩) :
    (settings.map fun kv => Item.setting kv.1 kv.2).foldlM Item.apply
    ⟨some ⟨name, 0, []⟩, true, ss⟩ =
      .ok ⟨some (Block.service ⟨name, settings⟩), true, ss⟩ := by
  induction settings using List.reverseRecOn with
  | nil => rfl
  | append_singleton settings kv ih =>
    have hkv : kv ∈ settings ++ [kv] := List.mem_append_right _ (List.mem_singleton_self kv)
    rw [List.map_append, List.foldlM_append, ih fun kv h => hok kv (List.mem_append_left _ h)]
    exact (bind_pure _).trans (set_eq (hok kv hkv))

theorem foldlM_block (hok : b.Ok) (hss : st.services = ss) :
    b.items.foldlM Item.apply st =
      if ss.length < MAX_SERVICES then .ok ⟨some b.service, false, ss ++ [b.service]⟩
      else .error .undefined := by
  obtain ⟨name, settings⟩ := b
  subst hss
  unfold Block.items
  rw [List.foldlM_append, List.foldlM_cons]
  change ((settings.map fun kv => Item.setting kv.1 kv.2).foldlM Item.apply
    ⟨some ⟨name, 0, []⟩, true, st.services⟩ >>= fun st => [Item.close].foldlM Item.apply st) = _
  rw [foldlM_settings hok]
  exact bind_pure (ParseState.store ⟨some (Block.service ⟨name, settings⟩), true, st.services⟩)

/-- The services, one by one, until there is no place. -/
theorem foldlM_blocks (hok : ∀ b ∈ blocks, b.Ok) (hss : st.services.length ≤ MAX_SERVICES) :
    ((blocks.flatMap Block.items).foldlM Item.apply st).map ParseState.services =
      if st.services.length + blocks.length ≤ MAX_SERVICES then .ok
      (st.services ++ blocks.map Block.service)
      else .error .undefined := by
  induction blocks generalizing st with
  | nil =>
    rw [List.length_nil, Nat.add_zero, if_pos hss, List.map_nil, List.append_nil]
    rfl
  | cons b blocks ih =>
    rw [List.flatMap_cons, List.foldlM_append, foldlM_block (hok b List.mem_cons_self) rfl]
    by_cases hlt : st.services.length < MAX_SERVICES
    · have hlen : (st.services ++ [b.service]).length = st.services.length + 1 := List.length_append
      rw [if_pos hlt]
      refine (ih (fun b' hb' => hok b' (List.mem_cons_of_mem _ hb'))
        (by rw [hlen]; exact hlt)).trans ?_
      rw [hlen, List.length_cons, List.map_cons, List.append_assoc,
        Nat.add_right_comm, Nat.add_assoc]
      rfl
    · rw [if_neg hlt, if_neg (by rw [List.length_cons]; omega)]
      rfl

end Blocks

/-- **A configuration is read as it is written down**: a file with the blocks of at most
`MAX_SERVICES` services, whatever its blanks, blank lines and comments, is read as these services,
and a file with more of them overruns the table. -/
theorem config_round_trip {file : Bytes} {items : List Item} {blocks : List Block}
    (h : IsText file items) (hitems : items.filter (· ≠ .nothing) = blocks.flatMap Block.items)
    (hok : ∀ b ∈ blocks, b.Ok) :
    parseConfig (some file) =
      if blocks.length ≤ MAX_SERVICES then .ok (blocks.map Block.service)
      else .error .undefined := by
  rw [parseConfig, configLoop_eq h le_rfl, ← foldlM_filter, hitems,
    foldlM_blocks hok (Nat.zero_le _)]
  simp [ParseState.start]

/-! ### Services that are read -/

/-- A service that fits its record: the name and the server end within their arrays, and the port is
of type `int`. -/
structure Service.WellFormed (s : Service) : Prop where
  /-- The name is a word of the file. -/
  name : IsWord isspace 63 s.name ∧ 0 ∉ s.name
  /-- The port. -/
  port : -2 ^ 31 ≤ s.port ∧ s.port < 2 ^ 31
  /-- The server, when there is one, is a word of the file. -/
  server : s.server = [] ∨ IsWord isspace 255 s.server ∧ 0 ∉ s.server

/-- What holds of the variables of `parse_config`, line by line. -/
structure ParseState.WellFormed (st : ParseState) : Prop where
  /-- The service that is read. -/
  current : ∀ s ∈ st.current, s.WellFormed
  /-- The table is not overrun. -/
  fits : st.services.length ≤ MAX_SERVICES
  /-- The services that have been read. -/
  services : ∀ s ∈ st.services, s.WellFormed

section WellFormed

variable {line file key value name p : Bytes} {st st' : ParseState}
  {services : List Service} {n : ℕ} {v : ℤ}

theorem atoi_bounds (h : atoi value = some v) : -2 ^ 31 ≤ v ∧ v < 2 ^ 31 := by
  unfold atoi at h
  obtain ⟨hv, hn⟩ := Option.ite_none_right_eq_some.mp h
  cases hn
  exact hv

theorem nul_cString : 0 ∉ cString line := fun h => by simpa using List.mem_takeWhile_imp h

theorem ParseState.WellFormed.begin (h : st.WellFormed) (hname : IsWord isspace 63 name)
    (hnul : 0 ∉ name) : (st.begin name).WellFormed := by
  refine ⟨?_, h.fits, h.services⟩
  rintro s ⟨⟩
  exact ⟨⟨hname, hnul⟩, ⟨(by decide : -2 ^ 31 ≤ (0 : ℤ)), (by decide : (0 : ℤ) < 2 ^ 31)⟩, .inl rfl⟩

theorem ParseState.WellFormed.store (h : st.WellFormed)
    (hst : st.store = .ok st') : st'.WellFormed := by
  unfold ParseState.store at hst
  cases hcurrent : st.current with
  | none =>
    rw [hcurrent] at hst
    cases hst
  | some s =>
    rw [hcurrent] at hst
    dsimp only at hst
    split_ifs at hst with hlt
    cases hst
    refine ⟨fun t ht => h.current t (by rw [hcurrent]; exact ht), ?_, fun t ht => ?_⟩
    · rw [List.length_append]
      exact hlt
    · obtain ht | ht := List.mem_append.mp ht
      · exact h.services t ht
      · rw [List.mem_singleton.mp ht]
        exact h.current s hcurrent

theorem ParseState.WellFormed.set (h : st.WellFormed) (hvalue : IsWord isspace 255 value)
    (hnul : 0 ∉ value) (hst : st.set key value = .ok st') : st'.WellFormed := by
  unfold ParseState.set at hst
  split_ifs at hst
  · cases hv : atoi value with
    | none =>
      rw [hv] at hst
      cases hst
    | some v =>
      rw [hv] at hst
      cases hst
      refine ⟨fun t ht => ?_, h.fits, h.services⟩
      obtain ⟨s, hs, rfl⟩ := Option.map_eq_some_iff.mp ht
      exact ⟨(h.current s hs).name, atoi_bounds hv, (h.current s hs).server⟩
  · cases hst
    refine ⟨fun t ht => ?_, h.fits, h.services⟩
    obtain ⟨s, hs, rfl⟩ := Option.map_eq_some_iff.mp ht
    exact ⟨(h.current s hs).name, (h.current s hs).port, .inr ⟨hvalue, hnul⟩⟩
  · cases hst
    exact h

/-- One line keeps what has been read well formed. -/
theorem ParseState.WellFormed.configLine (h : st.WellFormed)
    (hst : Xinetd.configLine st line = .ok st') : st'.WellFormed := by
  unfold Xinetd.configLine at hst
  have hnul : 0 ∉ trim isspace (cString line) := fun h0 => nul_cString (trim_subset h0)
  generalize trim isspace (cString line) = p at hst hnul
  dsimp only at hst
  split_ifs at hst
  · cases hst
    exact h
  · split at hst
    · next name _ hscan =>
      cases hst
      cases forall₂_scan hscan (by decide) with
      | cons hname _ => exact h.begin hname.1 fun h0 => hnul (List.mem_of_mem_drop (hname.2 h0))
    · cases hst
  · exact h.store hst
  · split at hst
    · next key _ value hscan =>
      obtain _ | ⟨_, _ | ⟨_, _ | ⟨hvalue, _⟩⟩⟩ := forall₂_scan hscan (by decide)
      exact h.set hvalue.1 (fun h0 => hnul (hvalue.2 h0)) hst
    · cases hst
      exact h
  · cases hst
    exact h

theorem ParseState.WellFormed.loop (h : st.WellFormed)
    (hrun : configLoop n st file = .ok services) :
    services.length ≤ MAX_SERVICES ∧ ∀ s ∈ services, s.WellFormed := by
  induction n generalizing st file with
  | zero =>
    cases file <;>
    · cases hrun
      exact ⟨h.fits, h.services⟩
  | succ n ih =>
    by_cases hne : file = []
    · subst hne
      cases hrun
      exact ⟨h.fits, h.services⟩
    · cases hgets : fgets MAX_LINE file with
      | mk line rest =>
        rw [configLoop_succ hgets hne] at hrun
        cases hline : Xinetd.configLine st line with
        | error _ =>
          rw [hline] at hrun
          cases hrun
        | ok st' =>
          rw [hline] at hrun
          exact ih (h.configLine hline) hrun

end WellFormed

/-- **What is read is well formed**, whatever the file: no array and no table is overrun, and every
service has a name. -/
theorem config_well_formed {file : Option Bytes} {services : List Service}
    (h : parseConfig file = .ok services) :
    services.length ≤ MAX_SERVICES ∧ ∀ s ∈ services, s.WellFormed := by
  cases file with
  | none => cases h
  | some file =>
    have hstart : ParseState.start.WellFormed :=
      ⟨fun _ h => (nomatch h), Nat.zero_le _, fun _ h => (nomatch h)⟩
    exact hstart.loop h

namespace Sample

/-- The lines of a file, the last one without a newline. -/
def file : Bytes :=
  '#'.toUInt8 :: literal " services" ++ newline ::
  (literal "service" ++ [32] ++ literal "nbd" ++ [32] ++ literal "\x7b" ++ newline ::
  ([9] ++ (literal "port" ++ [32] ++ literal "=" ++ [32, 32] ++ literal "10809") ++ newline ::
  ([32] ++ (literal "server" ++ [32] ++ literal "=" ++ [32] ++ literal "lwnbd" ++ [32]) ++
    newline ::
  ([32] ++ newline ::
  (literal "\x7d" ++ newline ::
  ([32] ++ (literal "service" ++ [32] ++ literal "disc" ++ [9] ++ literal "\x7b") ++ newline ::
  (literal "\x7d")))))))

/-- What the lines say. -/
def items : List Item :=
  [.nothing, .service (literal "nbd"), .setting (literal "port") (literal "10809"),
    .setting (literal "server") (literal "lwnbd"), .nothing, .close,
    .service (literal "disc"), .close]

/-- The services of the file. -/
def blocks : List Block :=
  [⟨literal "nbd", [(literal "port", literal "10809"), (literal "server", literal "lwnbd")]⟩,
    ⟨literal "disc", []⟩]

example : parseConfig (some file) = .ok [⟨literal "nbd", 10809, literal "lwnbd"⟩,
      ⟨literal "disc", 0, []⟩] := by decide

theorem isText_file : IsText file items := by
  have hport : IsKey (literal "port") := ⟨by decide, by decide, by decide, by decide⟩
  have hserver : IsKey (literal "server") := ⟨by decide, by decide, by decide, by decide⟩
  have hcomment : IsLine ('#'.toUInt8 :: literal " services") .nothing :=
    @IsLine.comment [] (literal " services") (by decide) (by decide)
  have hnbd : IsLine (literal "service" ++ [32] ++ literal "nbd" ++ [32] ++ literal "\x7b")
      (.service (literal "nbd")) :=
    @IsLine.service [] [32] [32] (literal "nbd") [] (by decide) (by decide) (by decide)
      (by decide) (by decide) (by decide)
  have hset₁ :
      IsLine ([9] ++ (literal "port" ++ [32] ++ literal "=" ++ [32, 32] ++ literal "10809"))
      (.setting (literal "port") (literal "10809")) :=
    @IsLine.setting [9] [32] [32, 32] (literal "port") (literal "10809") [] (by decide)
      (by decide) (by decide) hport (by decide) (by decide) (by decide)
  have hset₂ :
      IsLine ([32] ++ (literal "server" ++ [32] ++ literal "=" ++ [32] ++ literal "lwnbd" ++ [32]))
      (.setting (literal "server") (literal "lwnbd")) :=
    @IsLine.setting [32] [32] [32] (literal "server") (literal "lwnbd") [32] (by decide)
      (by decide) (by decide) hserver (by decide) (by decide) (by decide)
  have hclose : IsLine (literal "\x7d") .close := @IsLine.close [] [] (by decide) (by decide)
  have hdisc :
      IsLine ([32] ++ (literal "service" ++ [32] ++ literal "disc" ++ [9] ++ literal "\x7b"))
      (.service (literal "disc")) :=
    @IsLine.service [32] [32] [9] (literal "disc") [] (by decide) (by decide) (by decide)
      (by decide) (by decide) (by decide)
  have hlast : IsText (literal "\x7d") [.close] := .last hclose (by decide) (by decide) (by decide)
  have hsecond := hlast.line hdisc (by decide) (by decide)
  have hend := (hsecond.line hclose (by decide) (by decide)).line (@IsLine.blank [32] (by decide))
    (by decide) (by decide)
  have hsettings := (hend.line hset₂ (by decide) (by decide)).line hset₁ (by decide) (by decide)
  exact (hsettings.line hnbd (by decide) (by decide)).line hcomment (by decide) (by decide)

theorem config_round_trip_two :
    parseConfig (some file) =
      if blocks.length ≤ MAX_SERVICES then .ok (blocks.map Block.service) else .error .undefined :=
  config_round_trip isText_file (by decide) (by decide)

theorem config_well_formed_two :
    (blocks.map Block.service).length ≤ MAX_SERVICES ∧
    ∀ s ∈ blocks.map Block.service, s.WellFormed :=
  config_well_formed (show parseConfig (some file) = .ok (blocks.map Block.service) by decide)

end Sample

end LwNBD.Xinetd
