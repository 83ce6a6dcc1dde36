import LwNBD.Data.Slice
import LwNBD.Plugins.Query

/-!
# Command results in pieces

A client reads the result of a command as it reads any export: in pieces, if it likes, and the chunk
loop of the transmission phase makes pieces of what does not fit its buffer. But `command_pread`
ignores its offset: every piece is the start of the result.

## What is proved

* `commandPread_pieces_iff` — the pieces make up the result exactly when each of them holds what the
  result starts with.
-/

namespace LwNBD

variable (s : CommandStatics)

/-- What is read in pieces of these lengths, one after the other. -/
def commandPieces (counts : List ℕ) : Bytes :=
  (List.windows 0 counts).flatMap fun r => commandPread s (UInt32.ofNat r.2) (UInt64.ofNat r.1)

/-- What a read returns, of a length that fits the buffer. -/
theorem commandPread_eq {count : ℕ} (hcount : count ≤ CMD_BUFFER_SZ) (offset : UInt64) :
    commandPread s (UInt32.ofNat count) offset = s.result.slice 0 count := by
  have hlt : count < 2 ^ 32 := Nat.lt_of_le_of_lt hcount (by decide)
  rw [commandPread, UInt32.toNat_ofNat', Nat.mod_eq_of_lt hlt]
  rfl

/-- **A result in pieces.** Whatever the result and however it is cut, the pieces make up what one
read of all of it returns exactly when each piece holds what the result starts with; and so for any
one read. -/
theorem commandPread_pieces_iff (hresult : s.result.length = CMD_BUFFER_SZ)
    (hsize : (commandGetSize s).toInt ≤ CMD_BUFFER_SZ) (counts : List ℕ)
    (hsum : counts.sum = (commandGetSize s).toInt) :
    (commandPieces s counts = commandPread s (UInt32.ofNat counts.sum) 0 ↔
      ∀ r ∈ List.windows 0 counts, s.result.slice r.1 r.2 = s.result.slice 0 r.2) ∧
    ∀ count offset : ℕ, (offset + count : ℕ) ≤ (commandGetSize s).toInt →
      (commandPread s (UInt32.ofNat count) (UInt64.ofNat offset) = s.result.slice offset count ↔
        s.result.slice offset count = s.result.slice 0 count) := by
  have hall : counts.sum ≤ CMD_BUFFER_SZ := by omega
  have hwindow : ∀ r ∈ List.windows 0 counts, r.1 + r.2 ≤ CMD_BUFFER_SZ := fun r hr => by
    have := List.le_of_mem_windows hr
    omega
  constructor
  · have hpieces : commandPieces s counts = (List.windows 0 counts).flatMap fun r =>
        s.result.slice 0 r.2 := by
      unfold commandPieces
      refine List.flatMap_congr fun r hr => commandPread_eq s ?_ _
      have := hwindow r hr
      omega
    rw [commandPread_eq s hall, hpieces, ← List.flatMap_windows s.result 0 counts,
      List.flatMap_eq_iff]
    · exact forall₂_congr fun r _ => eq_comm
    · intro r hr
      have := hwindow r hr
      rw [List.length_slice (by omega), List.length_slice (by omega)]
  · intro count offset h
    rw [commandPread_eq s (by omega)]
    exact eq_comm

/-- A result of two different bytes. -/
def Sample.twoBytes : CommandStatics :=
  { result := store (List.replicate CMD_BUFFER_SZ 0) [97, 98], exportsize := 2, pp := none }

/-- The bound on the pieces, put to use: read one byte at a time, and in one piece. -/
theorem commandPread_pieces_iff_twoBytes :
    (commandPieces Sample.twoBytes [1, 1] = commandPread Sample.twoBytes 2 0 ↔
      ∀ r ∈ List.windows 0 [1, 1], Sample.twoBytes.result.slice r.1 r.2 =
      Sample.twoBytes.result.slice 0 r.2) :=
  (commandPread_pieces_iff Sample.twoBytes (by simp [Sample.twoBytes, length_store]) (by decide)
    [1, 1] (by decide)).1

/-- Read one byte at a time, the first byte is read twice. -/
theorem commandPread_pieces_differ :
    ¬ ∀ s : CommandStatics, s.result.length = CMD_BUFFER_SZ →
    (commandGetSize s).toInt ≤ CMD_BUFFER_SZ →
      ∀ counts : List ℕ, counts.sum = (commandGetSize s).toInt →
        commandPieces s counts = commandPread s (UInt32.ofNat counts.sum) 0 := by
  intro h
  have hpieces :=
    h Sample.twoBytes (by simp [Sample.twoBytes, length_store]) (by decide) [1, 1] (by decide)
  have htwice : commandPieces Sample.twoBytes [1, 1] = [97, 97] := by decide +kernel
  have honce : commandPread Sample.twoBytes (UInt32.ofNat [1, 1].sum) 0 = [97, 98] := by
    decide +kernel
  rw [htwice, honce] at hpieces
  exact absurd hpieces (by decide)

end LwNBD
