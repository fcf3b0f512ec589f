import ContactsIndex.Batch
import ContactsIndex.Measure
import ContactsIndex.Scheduler
import ContactsIndex.Stats

/-!
# Metrics

An event is noted where it happens; the recorder turns it into metrics. A metric
is found by its name and its labels. A counter is a sum that begins again at zero
when it leaves 64 bits, a gauge the last value it was set to, a histogram keeps its
samples in order, be they sizes or durations, and a timer only how often it ran.
-/

namespace ContactsIndex

inductive Note where
  | cycle (stats : Stats) (outcome : String)
  | flush (reason : FlushReason) (updates deletes failed : Nat)
  | sourceFailure (query : String)
  | schemaCheck (result : String)
  | job (action : String)
  | notification (coalesced : Bool)
  | activeUsers (count : Nat)
  | state (user : UserId) (code : Nat)
  | timer (component operation : String)
  deriving DecidableEq, Repr

inductive Metric where
  | counter (sum : UInt64)
  | gauge (value : Measure)
  | histogram (samples : List Measure)
  | durations (samples : List Measure)
  | timer (runs : Nat)
  deriving DecidableEq, Repr

namespace Metric

def add (n : Nat) : Option Metric → Metric
  | some (counter sum) => counter (sum + .ofNat n)
  | _ => counter (.ofNat n)

def sample (n : Nat) : Option Metric → Metric
  | some (histogram xs) => histogram (xs ++ [.ofNat n])
  | _ => histogram [.ofNat n]

def took (millis : Nat) : Option Metric → Metric
  | some (durations xs) => durations (xs ++ [.ofMillis millis])
  | _ => durations [.ofMillis millis]

def run : Option Metric → Metric
  | some (timer n) => timer (n + 1)
  | _ => timer 1

end Metric

structure Metrics where
  entries : List ((String × String) × Metric)
  deriving Repr

namespace Metrics

def empty : Metrics :=
  ⟨[]⟩

def labels (pairs : List (String × String)) : String :=
  ",".intercalate (pairs.map fun p => p.1 ++ "=" ++ p.2)

def update (metrics : Metrics) (name : String) (pairs : List (String × String)) (change : Option Metric → Metric) :
    Metrics :=
  let key := (name, labels pairs)
  match metrics.entries.find? (·.1 = key) with
  | none => ⟨metrics.entries ++ [(key, change none)]⟩
  | some _ => ⟨metrics.entries.map fun e => if e.1 = key then (key, change (some e.2)) else e⟩

def recordCycle (metrics : Metrics) (stats : Stats) (outcome : String) : Metrics :=
  let kind := ("kind", stats.kind.name)
  let results := [
    ("inserted", stats.inserted), ("updated", stats.updated), ("skipped", stats.skipped),
    ("update_failed", stats.updateFailed), ("deleted", stats.deleted),
    ("delete_not_found", stats.deleteNotFound), ("delete_failed", stats.deleteFailed)]
  let metrics := metrics.update "contacts_indexer_updates_total" [kind, ("outcome", outcome)] (.add 1)
  let metrics := (results.filter (0 < ·.2)).foldl
    (fun m r => m.update "contacts_indexer_documents_total" [kind, ("result", r.1)] (.add r.2)) metrics
  metrics.update "contacts_indexer_update_seconds" [kind] (.took stats.duration.toNat)

def recordFlush (metrics : Metrics) (reason : FlushReason) (updates deletes failed : Nat) : Metrics :=
  let metrics := metrics.update "contacts_indexer_flushes_total" [("reason", reason.name)] (.add 1)
  let metrics := metrics.update "contacts_indexer_flush_size" [("op", "put")] (.sample updates)
  let metrics := metrics.update "contacts_indexer_flush_size" [("op", "remove")] (.sample deletes)
  if failed = 0 then metrics else metrics.update "contacts_indexer_flush_failures_total" [] (.add failed)

def record (metrics : Metrics) : Note → Metrics
  | .cycle stats outcome => metrics.recordCycle stats outcome
  | .flush reason updates deletes failed => metrics.recordFlush reason updates deletes failed
  | .sourceFailure query => metrics.update "contacts_indexer_source_failures_total" [("query", query)] (.add 1)
  | .schemaCheck result => metrics.update "contacts_indexer_schema_checks_total" [("result", result)] (.add 1)
  | .job action => metrics.update "contacts_indexer_jobs_total" [("action", action)] (.add 1)
  | .notification coalesced =>
    metrics.update "contacts_indexer_notifications_total" [("coalesced", toString coalesced)] (.add 1)
  | .activeUsers count => metrics.update "contacts_indexer_active_users" [] fun _ => .gauge (.ofNat count)
  | .state user code => metrics.update "contacts_indexer_state" [("user", toString user)] fun _ => .gauge (.ofNat code)
  | .timer component operation =>
    metrics.update "contacts_indexer_operation_seconds" [("component", component), ("operation", operation)] .run

def sorted (metrics : Metrics) : List ((String × String) × Metric) :=
  metrics.entries.mergeSort fun a b => a.1.1 < b.1.1 || (a.1.1 = b.1.1 && a.1.2 ≤ b.1.2)

end Metrics

end ContactsIndex
