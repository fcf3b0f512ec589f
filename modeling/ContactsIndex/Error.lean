import ContactsIndex.Settings.Codec
import ContactsIndex.Scheduler
import ContactsIndex.Store.Status
import ContactsIndex.Text

/-!
# Errors

One type for each collaborator that can fail, one for an update cycle and one for
the calls of an instance. An error is its cause; `message` puts it into words.
-/

namespace ContactsIndex

/-! ## Collaborators -/

structure ProviderError where
  reason : String
  deriving DecidableEq, Repr

def ProviderError.message (e : ProviderError) : String :=
  "Contacts provider query failed: " ++ e.reason

inductive SourceError where
  /-- The provider had nothing to read from, which is not the same as nothing to report. -/
  | noCursor (query : String)
  | provider (cause : ProviderError)
  deriving DecidableEq, Repr

def SourceError.message : SourceError → String
  | noCursor query => "Contacts provider returned no cursor for " ++ query ++ " query"
  | provider cause => cause.message

inductive StorageError where
  | unavailable (reason : String)
  | outOfSpace
  | incompatibleSchema (types : List String)
  | backend (reason : String)
  deriving DecidableEq, Repr

namespace StorageError

def status : StorageError → Status
  | unavailable _ => .unavailable
  | outOfSpace => .outOfSpace
  | incompatibleSchema _ => .invalidArgument
  | backend _ => .internalError

def message : StorageError → String
  | unavailable reason => "Document store unavailable: " ++ reason
  | outOfSpace => "Document store is out of space"
  | incompatibleSchema types => "Schema change is incompatible for types " ++ bracketed (types.map quote)
  | backend reason => "Document store backend error: " ++ reason

end StorageError

def Outcome.ofError (ids : List String) (e : StorageError) : Outcome :=
  ids.map fun id => (id, e.status)

inductive SchedulerError where
  | rejected (user : UserId) (reason : String)
  | unavailable (reason : String)
  deriving DecidableEq, Repr

def SchedulerError.message : SchedulerError → String
  | rejected user reason => "Job scheduler rejected job for user " ++ toString user ++ ": " ++ reason
  | unavailable reason => "Job scheduler unavailable: " ++ reason

def SettingsError.message : SettingsError → String
  | io => "Settings I/O error"
  | truncated needed available =>
    "Settings file truncated: needed " ++ toString needed ++ " bytes, " ++ toString available ++ " available"
  | badMagic found => "Settings file has bad magic " ++ bracketed (found.map fun b => toString b.toNat)
  | unsupportedVersion version => "Unsupported settings format version " ++ toString version
  | badFieldLength tag length =>
    "Settings field " ++ toString tag ++ " has invalid length " ++ toString length

/-! ## Cycles and instances -/

inductive UpdateError where
  | source (cause : SourceError)
  | storage (cause : StorageError)
  /-- The cycle stopped after so many documents had failed. -/
  | aborted (failed : Nat)
  deriving DecidableEq, Repr

def UpdateError.message : UpdateError → String
  | source cause => "Failed to read contacts source: " ++ cause.message
  | storage cause => "Document store error: " ++ cause.message
  | aborted failed => "Update aborted after " ++ toString failed ++ " failed document operations"

inductive IndexerError where
  | shutDown (user : UserId)
  | unknownUser (user : UserId)
  | settings (cause : SettingsError)
  | storage (cause : StorageError)
  | scheduler (cause : SchedulerError)
  | io
  deriving DecidableEq, Repr

def IndexerError.message : IndexerError → String
  | shutDown user => "Contacts indexer for user " ++ toString user ++ " is shut down"
  | unknownUser user => "No contacts indexer running for user " ++ toString user
  | settings cause => "Settings error: " ++ cause.message
  | storage cause => "Document store error: " ++ cause.message
  | scheduler cause => "Job scheduler error: " ++ cause.message
  | io => "I/O error"

/-! ## How a cycle ends -/

/-- A cycle that met no error either did all its work or was stopped. -/
inductive Completion where
  | completed
  | cancelled
  deriving DecidableEq, Repr

inductive JobResult where
  | succeeded
  | failed
  | cancelled
  deriving DecidableEq, Repr

namespace JobResult

def ofResult : Except UpdateError Completion → JobResult
  | .ok .completed => succeeded
  | .ok .cancelled => cancelled
  | .error _ => failed

def name : JobResult → String
  | succeeded => "Succeeded"
  | failed => "Failed"
  | cancelled => "Cancelled"

def needsReschedule (result : JobResult) : Bool :=
  result = cancelled

end JobResult

end ContactsIndex
