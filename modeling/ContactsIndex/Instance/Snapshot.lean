import ContactsIndex.Settings.Basic
import ContactsIndex.Stats

/-!
# What an instance shows of itself

Observers see a snapshot that the worker publishes whenever it has handled
something.
-/

namespace ContactsIndex

inductive Lifecycle where
  | starting
  | running
  | shutDown
  deriving DecidableEq, Repr

inductive DeltaPhase where
  | idle
  | running
  /-- Running, and to be run once more when it ends. -/
  | pendingRerun
  deriving DecidableEq, Repr

def DeltaPhase.name : DeltaPhase → String
  | idle => "Idle"
  | running => "Running"
  | pendingRerun => "PendingRerun"

inductive IndexerState where
  | starting
  | idle
  | deltaUpdateRunning
  | deltaUpdatePendingRerun
  | fullUpdateRunning
  | shutDown
  deriving DecidableEq, Repr

namespace IndexerState

/-- The number that stands for the state in the metrics. -/
def code : IndexerState → Nat
  | starting => 0
  | idle => 0
  | deltaUpdateRunning => 1
  | deltaUpdatePendingRerun => 2
  | fullUpdateRunning => 3
  | shutDown => 4

def name : IndexerState → String
  | starting => "Starting"
  | idle => "Idle"
  | deltaUpdateRunning => "DeltaUpdateRunning"
  | deltaUpdatePendingRerun => "DeltaUpdatePendingRerun"
  | fullUpdateRunning => "FullUpdateRunning"
  | shutDown => "ShutDown"

end IndexerState

structure Snapshot where
  lifecycle : Lifecycle
  delta : DeltaPhase
  fullRunning : Bool
  completedDelta : Nat
  completedFull : Nat
  lastDelta : Option Stats
  lastFull : Option Stats
  settings : Settings
  deriving DecidableEq, Repr

namespace Snapshot

def starting (settings : Settings) : Snapshot :=
  ⟨.starting, .idle, false, 0, 0, none, none, settings⟩

/-- A delta update hides a full update that runs at the same time. -/
def state (s : Snapshot) : IndexerState :=
  match s.lifecycle, s.delta with
  | .shutDown, _ => .shutDown
  | .starting, _ => .starting
  | .running, .pendingRerun => .deltaUpdatePendingRerun
  | .running, .running => .deltaUpdateRunning
  | .running, .idle => if s.fullRunning then .fullUpdateRunning else .idle

def isIdle (s : Snapshot) : Bool :=
  s.state = .idle

def cycles (s : Snapshot) : Nat :=
  (if s.delta = .idle then 0 else 1) + (if s.fullRunning then 1 else 0)

def completed (s : Snapshot) : Nat :=
  s.completedDelta + s.completedFull

end Snapshot

end ContactsIndex
