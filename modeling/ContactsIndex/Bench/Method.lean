import ContactsIndex.Program.Call

/-!
# Watched calls

Calls of one method are numbered, held and disturbed together.
-/

namespace ContactsIndex.Bench

inductive Method where
  | updated
  | deleted
  | contacts
  | put
  | remove
  | entries
  | listIds
  | getSchema
  | setSchema
  | schedule
  | cancelJob
  | pendingJob
  deriving DecidableEq, Repr

namespace Method

def all : List Method :=
  [updated, deleted, contacts, put, remove, entries, listIds, getSchema, setSchema, schedule, cancelJob, pendingJob]

def name : Method → String
  | updated => "updated"
  | deleted => "deleted"
  | contacts => "contacts"
  | put => "put"
  | remove => "remove"
  | entries => "read"
  | listIds => "list"
  | getSchema => "get_schema"
  | setSchema => "set_schema"
  | schedule => "schedule"
  | cancelJob => "cancel"
  | pendingJob => "pending"

theorem mem_all (method : Method) : method ∈ all := by
  cases method <;> decide

end Method

/-- The settings file is not watched. -/
def methodOf : Call → Option Method
  | .updated _ _ => some .updated
  | .deleted _ => some .deleted
  | .contacts _ => some .contacts
  | .put _ => some .put
  | .remove _ => some .remove
  | .entries _ => some .entries
  | .listIds => some .listIds
  | .getSchema => some .getSchema
  | .setSchema _ _ => some .setSchema
  | .schedule _ _ => some .schedule
  | .cancelJob _ => some .cancelJob
  | .pendingJob _ => some .pendingJob
  | .makeFolder => none
  | .loadSettings => none
  | .persist _ => none

end ContactsIndex.Bench
