import ContactsIndex.Document.Diff
import ContactsIndex.Error
import ContactsIndex.Schema
import ContactsIndex.Settings.Basic
import ContactsIndex.Source.Listing
import ContactsIndex.Contact

/-!
# Calls to collaborators

Everything an indexer asks of the contacts provider, the document store, the job
scheduler and the settings file. A call may take any time, and what it is about
may change before it is answered.
-/

namespace ContactsIndex

inductive Call where
  -- the contacts provider
  | updated (since : Int) (limit : Limit)
  | deleted (since : Int)
  | contacts (ids : List String)
  -- the document store
  | put (docs : List Document)
  | remove (ids : List String)
  | entries (ids : List String)
  | listIds
  | getSchema
  | setSchema (schema : Schema) (force : Bool)
  -- the job scheduler
  | schedule (user : UserId) (job : Job)
  | cancelJob (user : UserId)
  | pendingJob (user : UserId)
  -- the settings file
  | makeFolder
  | loadSettings
  | persist (settings : Settings)
  deriving Repr

/-- What a call is answered with. The provider gives `none` when it has nothing to
read from, and a schema change the types whose documents it dropped. -/
abbrev Call.Reply : Call → Type
  | .updated _ _ => Except ProviderError (Option (List ChangeRow))
  | .deleted _ => Except ProviderError (Option (List ChangeRow))
  | .contacts _ => Except ProviderError (Option (List Contact))
  | .put _ => Except StorageError Outcome
  | .remove _ => Except StorageError Outcome
  | .entries _ => Except StorageError (List (Option Entry))
  | .listIds => Except StorageError (List String)
  | .getSchema => Except StorageError (Option Schema)
  | .setSchema _ _ => Except StorageError (List String)
  | .schedule _ _ => Except SchedulerError Unit
  | .cancelJob _ => Except SchedulerError Bool
  | .pendingJob _ => Except SchedulerError (Option Job)
  | .makeFolder => Except SettingsError Unit
  | .loadSettings => Settings
  | .persist _ => Except SettingsError Unit

end ContactsIndex
