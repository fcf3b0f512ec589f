/-!
# What the store says about a document

Every batch call is answered with one status per entry, in the order of the
request.
-/

namespace ContactsIndex

inductive Status where
  | ok
  | notFound
  | outOfSpace
  | internalError
  | ioError
  | invalidArgument
  | unavailable
  deriving DecidableEq, Repr

namespace Status

def all : List Status :=
  [ok, notFound, outOfSpace, internalError, ioError, invalidArgument, unavailable]

def name : Status → String
  | ok => "ok"
  | notFound => "not_found"
  | outOfSpace => "out_of_space"
  | internalError => "internal_error"
  | ioError => "io_error"
  | invalidArgument => "invalid_argument"
  | unavailable => "unavailable"

def isOk (status : Status) : Bool :=
  status = ok

theorem mem_all (status : Status) : status ∈ all := by
  cases status <;> decide

end Status

/-- A set of statuses, listed in the order of `Status.all`. -/
abbrev StatusSet := List Status

def StatusSet.add (set : StatusSet) (status : Status) : StatusSet :=
  Status.all.filter fun s => s = status || s ∈ set

theorem StatusSet.mem_add {set : StatusSet} {status s : Status} : s ∈ set.add status ↔ s = status ∨ s ∈ set := by
  simp [StatusSet.add, Status.mem_all]

abbrev Outcome := List (String × Status)

namespace Outcome

def count (outcome : Outcome) (status : Status) : Nat :=
  outcome.countP (·.2 = status)

def success (outcome : Outcome) : Bool :=
  outcome.all (·.2.isOk)

end Outcome

end ContactsIndex
