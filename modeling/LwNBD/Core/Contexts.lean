import LwNBD.Core.Types

/-!
# The context table

`src/contexts.c`: the calls that go through a context to its plugin, and the table of
contexts. A context, once taken from the table, is never given back.
-/

namespace LwNBD

open Resumption

/-! ### Calls through a context -/

/-- `lwnbd_pread`. -/
def lwnbdPread (me : Context) (count : UInt32) (offset : UInt64) : Server Pread :=
  match me.p with
  | none => .halt .undefined
  | some p => Prog.perform (Call.pread p me.handle count offset)

/-- `lwnbd_pwrite`. -/
def lwnbdPwrite (me : Context) (buf : Bytes) (count : UInt32) (offset : UInt64) : Server ℤ :=
  match me.p with
  | none => .halt .undefined
  | some p =>
    if p.pwrite then Prog.perform (Call.pwrite p me.handle buf count offset) else .halt .undefined

/-- `lwnbd_flush`. -/
def lwnbdFlush (me : Context) : Server ℤ :=
  match me.p with
  | none => .halt .undefined
  | some p => if p.flush then Prog.perform (Call.flush p me.handle) else .halt .undefined

/-! ### The table -/

namespace Registry

/-- The context in a slot. -/
def get (reg : Registry) (i : ContextIdx) : Context := reg.contexts[i]

/-- Change the context in a slot. -/
def update (reg : Registry) (i : ContextIdx) (f : Context → Context) : Registry :=
  { reg with contexts := reg.contexts.set i (f (reg.get i)) }

@[simp] theorem get_update (reg : Registry) (i : ContextIdx) (f : Context → Context) :
    (reg.update i f).get i = f (reg.get i) := by simp [get, update]

theorem get_update_ne (reg : Registry) {i j : ContextIdx} (f : Context → Context) (h : j ≠ i) :
    (reg.update i f).get j = reg.get j := by
  have hij : i.val ≠ j.val := fun he => h (Fin.ext he.symm)
  exact Vector.getElem_set_ne i.isLt j.isLt hij

/-- The first free slot, or `MAX_CONTEXTS`: the loop of `lwnbd_new_context` and of
`lwnbd_contexts_count`. -/
def firstFree (reg : Registry) : ℕ := reg.status.toList.findIdx (· = .free)

/-- `lwnbd_contexts_count`. -/
def contextsCount (reg : Registry) : ℕ := reg.firstFree

end Registry

/-- `lwnbd_new_context`: take the first free slot, `NULL` when there is none. -/
def lwnbdNewContext : Server (Option ContextIdx) := do
  let reg := (← Prog.read).reg
  if h : reg.firstFree < MAX_CONTEXTS then
    Prog.modify fun s =>
      { s with reg := { reg with status := reg.status.set reg.firstFree .created } }
    pure (some ⟨reg.firstFree, h⟩)
  else pure none

/-- `strncmp`: the difference of the first characters, among the first `n`, that differ. -/
def strncmp : Bytes → Bytes → ℕ → ℤ
  | _, _, 0 => 0
  | [], [], _ + 1 => 0
  | [], b :: _, _ + 1 => -b.toNat
  | a :: _, [], _ + 1 => a.toNat
  | a :: s, b :: t, n + 1 => if a = b then strncmp s t n else a.toNat - b.toNat

/-- `lwnbd_get_context_string`: the first created context of that name. -/
def Registry.getContextString (reg : Registry) (contextname : Bytes) : Option ContextIdx :=
  (List.finRange MAX_CONTEXTS).find? fun i =>
    i < reg.contextsCount && strncmp (reg.get i).name contextname 32 == 0

/-- `lwnbd_update_size`, of the context in slot `i`. -/
def lwnbdUpdateSize (i : ContextIdx) : Server Unit := do
  let me := (← Prog.read).reg.get i
  match me.p with
  | none => .halt .undefined
  | some p =>
    if p.getSize then
      let size ← Prog.perform (Call.getSize p me.handle)
      Prog.modify fun s => { s with reg := s.reg.update i fun c => { c with exportsize := size } }
    else .halt .undefined

end LwNBD
