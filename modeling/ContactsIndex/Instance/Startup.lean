import ContactsIndex.Instance.Worker
import ContactsIndex.Schema

/-!
# Starting an instance

The settings are loaded and the schema of the store is brought up to date. When the
installed documents do not survive that, they are dropped, the watermarks go back to
zero, and the instance begins with a full update.
-/

namespace ContactsIndex.Startup

/-- Whether the documents were dropped. -/
def reconcileSchema : Program (Except StorageError Bool) := do
  match ← Program.ask .getSchema with
  | .error e => return .error e
  | .ok installed =>
    match Schema.compatibility installed .personCorpus with
    | .fresh => install "fresh" false
    | .unchanged => do
      Program.record (.schemaCheck "unchanged")
      return .ok false
    | .compatible => install "compatible" false
    | .incompatible _ => install "incompatible" true
where
  install (label : String) (force : Bool) : Program (Except StorageError Bool) := do
    match ← Program.ask (.setSchema .personCorpus force) with
    | .error e => return .error e
    | .ok _ => do
      Program.record (.schemaCheck label)
      return .ok force

def prepare : Program (Except IndexerError (Settings × InitialCycle)) := do
  match ← Program.ask .makeFolder with
  | .error _ => return .error .io
  | .ok () =>
    let settings ← Program.ask .loadSettings
    match ← reconcileSchema with
    | .error e => return .error (.storage e)
    | .ok false => return .ok (settings, .delta)
    | .ok true =>
      let settings := settings.resetWatermarks
      match ← Program.ask (.persist settings) with
      | .error e => return .error (.settings e)
      | .ok () => return .ok (settings, .full)

end ContactsIndex.Startup
