/-!
# Change listings

A change row says that a contact was touched at some time; a contact may have
several rows. A listing made from rows holds every contact with a row newer than
the watermark of the last listing, the most recently touched first, and the
watermark from which the next listing goes on. A limit keeps the most recent.
-/

namespace ContactsIndex

inductive Limit where
  | unlimited
  | atMost (count : Nat)
  deriving DecidableEq, Repr

namespace Limit

def ofOption : Option Nat → Limit
  | none => unlimited
  | some n => atMost n

def reachedBy (count : Nat) : Limit → Bool
  | unlimited => false
  | atMost n => n ≤ count

def take {α : Type} : Limit → List α → List α
  | unlimited, xs => xs
  | atMost n, xs => xs.take n

end Limit

structure ChangeRow where
  id : String
  stamp : Int
  deriving DecidableEq, Repr

namespace ChangeRow

/-- Newer rows come first, and rows of one time by id. -/
def before (a b : ChangeRow) : Bool :=
  b.stamp < a.stamp || (a.stamp = b.stamp && a.id ≤ b.id)

def firsts : List ChangeRow → List ChangeRow
  | [] => []
  | row :: rows => row :: (firsts rows).filter (·.id ≠ row.id)

end ChangeRow

structure Listing where
  ids : List String
  watermark : Int
  deriving DecidableEq, Repr

def Listing.ofRows (since : Int) (rows : List ChangeRow) (limit : Limit) : Listing :=
  let recent := (rows.filter (since < ·.stamp)).mergeSort ChangeRow.before
  let kept := limit.take (ChangeRow.firsts recent)
  ⟨kept.map (·.id), (kept.map (·.stamp)).foldl max since⟩

end ContactsIndex
