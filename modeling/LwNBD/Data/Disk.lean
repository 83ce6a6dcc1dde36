import LwNBD.Data.Slice

/-!
# An ideal disk

A disk is an array of items, and does what it is asked at once: a read returns a slice of
it, a write overwrites one, and a flush does nothing that is seen.
-/

namespace Disk

variable {α : Type*}

/-- What a disk is asked. -/
inductive Op (α : Type*) where
  /-- Read `count` items from index `offset`. -/
  | read (offset count : ℕ)
  /-- Write these items at index `offset`. -/
  | write (offset : ℕ) (data : List α)
  /-- Let what was written last. -/
  | flush

namespace Op

/-- The range of the operation lies in a disk of this size. -/
def Fits (size : ℕ) : Op α → Prop
  | read offset count => offset + count ≤ size
  | write offset data => offset + data.length ≤ size
  | flush => True

/-- The content afterwards. -/
def apply (content : List α) : Op α → List α
  | write offset data => content.overwrite offset data
  | _ => content

/-- The items returned. -/
def result (content : List α) : Op α → List α
  | read offset count => content.slice offset count
  | _ => []

theorem length_apply {content : List α} {op : Op α} (h : op.Fits content.length) :
    (op.apply content).length = content.length := by
  cases op with
  | read => rfl
  | write offset data => exact List.length_overwrite h
  | flush => rfl

end Op

/-- The content after a sequence of operations. -/
def applyAll (content : List α) (ops : List (Op α)) : List α := ops.foldl Op.apply content

end Disk
