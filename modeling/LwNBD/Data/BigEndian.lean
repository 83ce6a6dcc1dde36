import Mathlib.Data.Nat.Notation
import Mathlib.Algebra.Ring.Nat

/-!
# Big-endian numbers

Numbers as strings of bytes, the most significant first, as network protocols write
them: `toBytes w n` is `n` in `w` bytes, `ofBytes` reads a string back.
-/

namespace BigEndian

/-- The number a string of bytes stands for. -/
def ofBytes (l : List UInt8) : ℕ := l.foldl (fun n b => n * 256 + b.toNat) 0

/-- The `w` low bytes of `n`, the most significant first. -/
def toBytes : ℕ → ℕ → List UInt8
  | 0, _ => []
  | w + 1, n => toBytes w (n / 256) ++ [UInt8.ofNat n]

@[simp] theorem length_toBytes (w n : ℕ) : (toBytes w n).length = w := by
  induction w generalizing n with
  | zero => rfl
  | succ w ih => simp [toBytes, ih]

@[simp] theorem ofBytes_nil : ofBytes [] = 0 := rfl

theorem ofBytes_concat (l : List UInt8) (b : UInt8) :
    ofBytes (l ++ [b]) = ofBytes l * 256 + b.toNat := by
  simp [ofBytes]

/-- Reading back what was written gives the number, if it fits. -/
theorem ofBytes_toBytes {w n : ℕ} (h : n < 256 ^ w) : ofBytes (toBytes w n) = n := by
  induction w generalizing n with
  | zero => simp only [Nat.pow_zero, Nat.lt_one_iff] at h; simp [toBytes, h]
  | succ w ih =>
    have hlt : n / 256 < 256 ^ w := by rw [Nat.pow_succ] at h; omega
    rw [toBytes, ofBytes_concat, ih hlt, UInt8.toNat_ofNat']
    omega

end BigEndian
