/-!
# Batches

Items that are gathered until there are enough of them to be sent together.
-/

namespace ContactsIndex

inductive FlushReason where
  | updateCount
  | deleteCount
  | endOfCycle
  | cancelled
  deriving DecidableEq, Repr

def FlushReason.name : FlushReason → String
  | updateCount => "update_count"
  | deleteCount => "delete_count"
  | endOfCycle => "end_of_cycle"
  | cancelled => "cancelled"

structure Batch (α : Type) where
  /-- The oldest item first. -/
  items : List α
  deriving DecidableEq, Repr

namespace Batch

variable {α : Type}

def empty : Batch α :=
  ⟨[]⟩

def size (batch : Batch α) : Nat :=
  batch.items.length

def isEmpty (batch : Batch α) : Bool :=
  batch.items.isEmpty

def push (batch : Batch α) (item : α) : Batch α :=
  ⟨batch.items ++ [item]⟩

/-- Whether there are enough items; a threshold of zero acts as one. -/
def isFull (batch : Batch α) (threshold : Nat) : Bool :=
  max 1 threshold ≤ batch.size

def take (batch : Batch α) : List α × Batch α :=
  (batch.items, empty)

end Batch

end ContactsIndex
