import ContactsIndex.Instance.Snapshot
import ContactsIndex.Json.Records
import ContactsIndex.Metrics
import ContactsIndex.Program.Call

/-!
# Reports in JSON

What an indexer tells of its state and its work: settings, jobs, outcomes,
statistics, metrics, snapshots and calls.
-/

namespace ContactsIndex

open Json

def Json.bytes (content : List UInt8) : Json :=
  string (hexText content)

def Document.report : Document → Json :=
  Document.toJsonWith fun f => string f.hex

def Document.brief (d : Document) : Json :=
  array [string d.id, string d.name, int d.createdAt, string d.fingerprint.hex]

def Entry.report (e : Entry) : Json :=
  array [string e.id, string e.fingerprint.hex, int e.createdAt]

def Settings.report (s : Settings) : Json :=
  array [int s.lastFull, int s.lastDelta, int s.contactUpdate, int s.contactDelete]

def Outcome.report (o : Outcome) : Json :=
  array (o.map fun (id, status) => array [string id, string status.name])

def Limit.report : Limit → Json
  | unlimited => null
  | atMost n => nat n

def ChangeRow.report (row : ChangeRow) : Json :=
  array [string row.id, int row.stamp]

/-! ## Jobs -/

def Job.report (job : Job) : Json :=
  object [
    ("periodic", bool job.periodic), ("interval_millis", nat job.interval),
    ("requires_battery_not_low", bool job.requiresBatteryNotLow),
    ("requires_device_idle", bool job.requiresDeviceIdle), ("persisted", bool job.persisted)]

def Job.brief (user : UserId) (job : Job) : List Json :=
  [nat user, bool job.periodic, nat job.interval]

/-! ## Statistics -/

def Watermarks.report (w : Watermarks) : Json :=
  array [int w.update, int w.delete]

def Stats.report (s : Stats) : Json :=
  object [
    ("kind", string s.kind.name), ("start", int s.startedAt), ("end", int s.finishedAt),
    ("duration", int s.duration), ("update_statuses", strings (s.updateStatuses.map Status.name)),
    ("delete_statuses", strings (s.deleteStatuses.map Status.name)), ("to_update", nat s.toUpdate),
    ("inserted", nat s.inserted), ("updated", nat s.updated), ("skipped", nat s.skipped),
    ("update_failed", nat s.updateFailed), ("missing", nat s.missing), ("to_delete", nat s.toDelete),
    ("deleted", nat s.deleted), ("delete_not_found", nat s.deleteNotFound),
    ("delete_failed", nat s.deleteFailed), ("failed", nat s.failed), ("out_of_space", bool s.outOfSpace),
    ("previous", s.previous.report), ("new", s.new.report),
    ("truncated", bool s.truncated), ("overlapped", bool s.overlapped)]

def Stats.brief (s : Stats) : Json :=
  array ([s.toUpdate, s.inserted, s.updated, s.skipped, s.updateFailed, s.missing, s.toDelete, s.deleted,
    s.deleteNotFound, s.deleteFailed].map nat ++
    [bool s.truncated, bool s.overlapped, int s.startedAt, int s.finishedAt])

def Stats.counts (s : Stats) : Json :=
  array ([s.inserted, s.updated, s.skipped, s.updateFailed, s.deleted, s.deleteNotFound, s.deleteFailed].map nat)

/-! ## Metrics and snapshots -/

/-- A report holds no measured value beyond this one. -/
def largestReported : Nat := 9223372036854775807

def Measure.report (m : Measure) : Json :=
  nat (min m.round largestReported)

def Metric.report : Metric → Json
  | counter sum => nat sum.toNat
  | gauge value => value.report
  | histogram samples => array (samples.map Measure.report)
  | durations samples => array (samples.map fun m => m.inMillis.report)
  | timer runs => nat runs

def Metrics.report (m : Metrics) : Json :=
  array (m.sorted.map fun ((name, labels), metric) => array [string name, string labels, metric.report])

def Snapshot.report (s : Snapshot) : Json :=
  object [
    ("state", string s.state.name), ("code", nat s.state.code), ("delta_phase", string s.delta.name),
    ("full_running", bool s.fullRunning), ("completed", array [nat s.completedDelta, nat s.completedFull]),
    ("settings", s.settings.report), ("last_delta", orNull Stats.brief s.lastDelta),
    ("last_full", orNull Stats.brief s.lastFull)]

/-! ## Calls -/

def Call.report : Call → Json
  | updated since limit => array [string "updated", int since, limit.report]
  | deleted since => array [string "deleted", int since]
  | contacts ids => array [string "contacts", strings ids]
  | put docs => array [string "put", strings (docs.map (·.id))]
  | remove ids => array [string "remove", strings ids]
  | entries ids => array [string "read", strings ids]
  | listIds => array [string "list"]
  | getSchema => array [string "get_schema"]
  | setSchema schema force => array [string "set_schema", nat schema.version, bool force]
  | schedule user job => array (string "schedule" :: job.brief user)
  | cancelJob user => array [string "cancel", nat user]
  | pendingJob user => array [string "pending", nat user]
  | makeFolder => array [string "make_folder"]
  | loadSettings => array [string "load_settings"]
  | persist settings => array [string "persist", settings.report]

end ContactsIndex
