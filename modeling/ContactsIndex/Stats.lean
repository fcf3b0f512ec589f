import ContactsIndex.Store.Status

/-!
# Statistics of an update cycle

Every contact that a cycle was asked to update is counted as updated, failed,
skipped or missing from the source, and every contact to delete as deleted, not
found or failed.
-/

namespace ContactsIndex

inductive UpdateKind where
  | delta
  | full
  deriving DecidableEq, Repr

def UpdateKind.name : UpdateKind → String
  | delta => "delta"
  | full => "full"

structure Watermarks where
  update : Int
  delete : Int
  deriving DecidableEq, Repr

structure Stats where
  kind : UpdateKind
  startedAt : Int
  finishedAt : Int
  updateStatuses : StatusSet
  deleteStatuses : StatusSet
  toUpdate : Nat
  inserted : Nat
  updated : Nat
  skipped : Nat
  updateFailed : Nat
  /-- Contacts that were listed and could not be read any more. -/
  missing : Nat
  toDelete : Nat
  deleted : Nat
  deleteNotFound : Nat
  deleteFailed : Nat
  previous : Watermarks
  new : Watermarks
  /-- Whether the listing was cut off by its limit. -/
  truncated : Bool
  /-- Whether a delta update moved the watermark of changes during this full update. -/
  overlapped : Bool
  deriving DecidableEq, Repr

namespace Stats

def start (kind : UpdateKind) (now : Int) : Stats where
  kind := kind
  startedAt := now
  finishedAt := 0
  updateStatuses := []
  deleteStatuses := []
  toUpdate := 0
  inserted := 0
  updated := 0
  skipped := 0
  updateFailed := 0
  missing := 0
  toDelete := 0
  deleted := 0
  deleteNotFound := 0
  deleteFailed := 0
  previous := ⟨0, 0⟩
  new := ⟨0, 0⟩
  truncated := false
  overlapped := false

def recordUpdate (stats : Stats) (status : Status) : Stats :=
  let stats := { stats with updateStatuses := stats.updateStatuses.add status }
  if status.isOk then { stats with updated := stats.updated + 1 }
  else { stats with updateFailed := stats.updateFailed + 1 }

def recordDelete (stats : Stats) (status : Status) : Stats :=
  let stats := { stats with deleteStatuses := stats.deleteStatuses.add status }
  match status with
  | .ok => { stats with deleted := stats.deleted + 1 }
  | .notFound => { stats with deleteNotFound := stats.deleteNotFound + 1 }
  | _ => { stats with deleteFailed := stats.deleteFailed + 1 }

def failed (stats : Stats) : Nat :=
  stats.updateFailed + stats.deleteFailed

def outOfSpace (stats : Stats) : Bool :=
  stats.updateStatuses.contains .outOfSpace || stats.deleteStatuses.contains .outOfSpace

def finish (stats : Stats) (now : Int) : Stats :=
  { stats with finishedAt := now }

/-- How long the cycle took; zero if the clock went back. -/
def duration (stats : Stats) : Int :=
  max 0 (stats.finishedAt - stats.startedAt)

end Stats

end ContactsIndex
