import ContactsIndex.Instance.Snapshot
import ContactsIndex.Update.Cycle

/-!
# The worker of an instance

The worker of a user runs at most one delta update and one full update at a time,
and handles one event after another: a command, the end of a cycle, a new
configuration. Notifications that arrive during a delta update are answered by one
further delta update. Jobs that ask for a full update while one is running share its
result. Once the worker is draining no cycle is started any more; it waits for those
in flight and then shuts down.
-/

namespace ContactsIndex

/-- A full update in flight, with the job it was started for; the token of that
job cancels it. -/
structure FullRun where
  context : CycleContext
  job : Option JobId
  deriving DecidableEq, Repr

structure Worker where
  user : UserId
  config : Config
  settings : Settings
  delta : Option CycleContext
  rerun : Bool
  full : Option FullRun
  waiters : List JobId
  /-- Whether the worker only waits for the cycles in flight; this fires their tokens. -/
  draining : Bool
  lifecycle : Lifecycle
  completedDelta : Nat
  completedFull : Nat
  lastDelta : Option Stats
  lastFull : Option Stats
  published : Snapshot
  deriving DecidableEq, Repr

inductive InitialCycle where
  | delta
  | full
  deriving DecidableEq, Repr

inductive Command where
  | contactsChanged
  /-- A full update, for a job that waits for the result or for nobody. -/
  | runFullUpdate (job : Option JobId)
  deriving DecidableEq, Repr

namespace Worker

def new (user : UserId) (settings : Settings) (config : Config) : Worker where
  user := user
  config := config
  settings := settings
  delta := none
  rerun := false
  full := none
  waiters := []
  draining := false
  lifecycle := .starting
  completedDelta := 0
  completedFull := 0
  lastDelta := none
  lastFull := none
  published := .starting settings

/-! ## Publishing -/

def phase (w : Worker) : DeltaPhase :=
  match w.delta with
  | none => .idle
  | some _ => if w.rerun then .pendingRerun else .running

def snapshot (w : Worker) : Snapshot :=
  ⟨w.lifecycle, w.phase, w.full.isSome, w.completedDelta, w.completedFull, w.lastDelta, w.lastFull, w.settings⟩

def publish (w : Worker) : Program Worker := do
  Program.record (.state w.user w.snapshot.state.code)
  return { w with published := w.snapshot }

/-! ## The full update job of the scheduler -/

/-- Whether the pending job may stay as it is: a periodic one with this interval,
or a one-off that is not to be replaced. -/
def keeps (interval : Nat) (replaceOneOff : Bool) : Option Job → Bool
  | none => false
  | some job => job.isPeriodicWith interval || (!job.periodic && !replaceOneOff)

/-- Makes sure that a full update is pending. A failure to find out what is pending
does not keep the job from being scheduled. -/
def ensureJob (w : Worker) (replaceOneOff : Bool) : Program Unit := do
  let pending := (← Program.ask (.pendingJob w.user)).toOption.join
  if keeps w.config.fullInterval replaceOneOff pending then return ()
  else
    match ← Program.ask (.schedule w.user (.everyInterval w.config.fullInterval)) with
    | .ok () => Program.record (.job "periodic")
    | .error _ => return ()

def cancelJob (w : Worker) : Program Unit := do
  match ← Program.ask (.cancelJob w.user) with
  | .ok true => Program.record (.job "cancel")
  | _ => return ()

/-! ## Starting cycles -/

def context (w : Worker) : CycleContext :=
  ⟨w.user, w.config, w.settings⟩

def startDelta (w : Worker) : Worker :=
  { w with delta := some w.context }

def startFull (w : Worker) (job : Option JobId) : Worker :=
  { w with full := some ⟨w.context, job⟩ }

def triggerDelta (w : Worker) : Program Worker := do
  Program.record (.notification w.delta.isSome)
  return if w.delta.isSome then { w with rerun := true } else w.startDelta

/-! ## Handling events -/

def tellAll (result : JobResult) : List JobId → Program Unit
  | [] => return ()
  | job :: jobs => do
    Program.tell job result
    tellAll result jobs

def begin (w : Worker) (initial : InitialCycle) : Program Worker := do
  let w := { w with lifecycle := .running }
  if w.config.enabled then
    w.ensureJob false
    match initial with
    | .delta => w.startDelta.publish
    | .full => (w.startFull none).publish
  else
    w.cancelJob
    w.publish

/-- While indexing is disabled, notifications are ignored and jobs told that they
succeeded. -/
def onCommand (w : Worker) (command : Command) : Program Worker :=
  match command with
  | .contactsChanged =>
    if w.config.enabled then do (← w.triggerDelta).publish else return w
  | .runFullUpdate job =>
    if w.config.enabled then
      let w := { w with waiters := w.waiters ++ job.toList }
      (if w.full.isSome then w else w.startFull job).publish
    else do
      tellAll .succeeded job.toList
      return w

def onConfig (w : Worker) (config : Config) : Program Worker := do
  let before := w.config
  let w := { w with config := config }
  match before.enabled, config.enabled with
  | true, false =>
    w.cancelJob
    w.publish
  | false, true =>
    w.ensureJob false
    (← w.triggerDelta).publish
  | true, true =>
    if before.fullInterval ≠ config.fullInterval then w.ensureJob false
    w.publish
  | false, false => w.publish

/-- Writes the settings. The worker goes on with them even if that fails. -/
def persist (w : Worker) : Program Unit := do
  let _ ← Program.ask (.persist w.settings)

def adopt (settings : Settings) (watermarks : Watermarks) (finishedAt : Int) : Settings :=
  ((settings.advanceUpdate watermarks.update).advanceDelete watermarks.delete).setLastDelta finishedAt

/-- Only a completed delta update moves the watermarks. -/
def settleDelta (w : Worker) (outcome : CycleContext.DeltaOutcome) : Program (Worker × String) :=
  match outcome.result with
  | .ok ⟨.completed, watermarks⟩ => do
    let w := { w with settings := adopt w.settings watermarks outcome.stats.finishedAt }
    w.persist
    return ({ w with completedDelta := w.completedDelta + 1 }, "completed")
  | .ok ⟨.cancelled, _⟩ => return (w, "cancelled")
  | .error _ => return (w, "failed")

def onDeltaDone (w : Worker) (outcome : CycleContext.DeltaOutcome) : Program Worker := do
  let (w, label) ← settleDelta { w with delta := none } outcome
  Program.record (.cycle outcome.stats label)
  let due := w.rerun && !w.draining && w.config.enabled
  let w := { w with lastDelta := some outcome.stats, rerun := false }
  (if due then w.startDelta else w).publish

def settleFull (w : Worker) (result : JobResult) (stats : Stats) : Program (Worker × String) :=
  match result with
  | .succeeded => do
    let w := { w with settings := w.settings.setLastFull stats.finishedAt }
    w.persist
    return ({ w with completedFull := w.completedFull + 1 }, "completed")
  | .cancelled => return (w, "cancelled")
  | .failed => return (w, "failed")

/-- A full update that ended gives way to the periodic job, unless it has to be run
again. -/
def onFullDone (w : Worker) (outcome : CycleContext.FullOutcome) : Program Worker := do
  let moved := w.settings.contactUpdate ≠ outcome.stats.previous.update
  let stats := { outcome.stats with overlapped := outcome.stats.overlapped || moved }
  let result := JobResult.ofResult outcome.result
  let (w, label) ← settleFull { w with full := none } result stats
  Program.record (.cycle stats label)
  tellAll result w.waiters
  let w := { w with lastFull := some stats, waiters := [] }
  if result ≠ .cancelled && !w.draining && w.config.enabled then w.ensureJob true
  w.publish

/-- Starts to drain: from here on no cycle is started. -/
def beginDrain (w : Worker) : Worker :=
  { w with draining := true, rerun := false }

def finishDrain (w : Worker) : Program Worker := do
  tellAll .cancelled w.waiters
  publish { w with waiters := [], lifecycle := .shutDown }

end Worker

end ContactsIndex
