import ContactsIndex.Bench.Thread
import ContactsIndex.Instance.Startup

/-!
# Running instances

An instance is its worker with the threads of the cycles in flight, the thread of
the handler that is at work, and the messages not yet handled. Handlers come one
after another, and while one is at work the cycles do not move. Cycles that can go
on do so before the next message is handled.
-/

namespace ContactsIndex.Bench

inductive Message where
  | command (c : Command)
  | config (c : Config)
  | shutdown
  deriving DecidableEq, Repr

def Message.isConfig : Message → Bool
  | config _ => true
  | _ => false

structure Instance where
  worker : Worker
  handler : Option (Thread Worker)
  delta : Option (Thread CycleContext.DeltaOutcome)
  full : Option (Thread CycleContext.FullOutcome)
  inbox : List Message

namespace Instance

def launch (worker : Worker) (initial : InitialCycle) : Instance where
  worker := worker
  handler := some (.of (worker.begin initial))
  delta := none
  full := none
  inbox := []

def isClosed (inst : Instance) : Bool :=
  inst.worker.lifecycle = .shutDown

def isLeaving (inst : Instance) : Bool :=
  inst.isClosed || inst.worker.draining || inst.inbox.contains .shutdown

def isBusy (inst : Instance) : Bool :=
  inst.handler.isSome || inst.delta.isSome || inst.full.isSome

def heldCalls (inst : Instance) : List Issued :=
  (inst.handler.map (·.issued)).getD [] ++ (inst.delta.map (·.issued)).getD [] ++ (inst.full.map (·.issued)).getD []

def send (inst : Instance) (message : Message) : Instance :=
  { inst with inbox := inst.inbox ++ [message] }

/-- Hands out a new configuration. One that was not looked at yet is forgotten. -/
def reconfigure (inst : Instance) (config : Config) : Instance :=
  { inst with inbox := inst.inbox.filter (!·.isConfig) ++ [.config config] }

def install (inst : Instance) (worker : Worker) : Instance where
  worker := worker
  handler := none
  delta := inst.delta <|> worker.delta.map fun context => .of context.deltaUpdate
  full := inst.full <|> worker.full.map fun run => .of run.context.fullUpdate
  inbox := inst.inbox

structure Move where
  inst : Instance
  scene : Scene
  moved : Bool

/-- A job that was never looked at is told that it was cancelled. -/
def refuse (inbox : List Message) (scene : Scene) : Scene :=
  inbox.foldl (fun scene message =>
    match message with
    | .command (.runFullUpdate (some job)) => scene.answer job .cancelled
    | _ => scene) scene

def moveHandler (inst : Instance) (thread : Thread Worker) (scene : Scene) : Move :=
  match thread.advance scene with
  | (.held thread, scene) => ⟨{ inst with handler := some thread }, scene, false⟩
  | (.ended worker, scene) => ⟨inst.install worker, scene, true⟩

def moveDelta (inst : Instance) (scene : Scene) : Move :=
  match inst.delta with
  | none => ⟨inst, scene, false⟩
  | some thread =>
    match thread.advance { scene with cancelled := inst.worker.draining } with
    | (.held thread, scene) => ⟨{ inst with delta := some thread }, scene, false⟩
    | (.ended outcome, scene) =>
      ⟨{ inst with delta := none, handler := some (.of (inst.worker.onDeltaDone outcome)) }, scene, true⟩

/-- The token of a full update is fired by the shutdown and by the job it was started for. -/
def fullCancelled (worker : Worker) (fired : List JobId) : Bool :=
  worker.draining || (worker.full.bind (·.job)).any fired.contains

def moveFull (inst : Instance) (fired : List JobId) (scene : Scene) : Move :=
  match inst.full with
  | none => ⟨inst, scene, false⟩
  | some thread =>
    match thread.advance { scene with cancelled := fullCancelled inst.worker fired } with
    | (.held thread, scene) => ⟨{ inst with full := some thread }, scene, false⟩
    | (.ended outcome, scene) =>
      ⟨{ inst with full := none, handler := some (.of (inst.worker.onFullDone outcome)) }, scene, true⟩

def moveMessage (inst : Instance) (scene : Scene) : Move :=
  match inst.inbox with
  | [] => ⟨inst, scene, false⟩
  | message :: inbox =>
    let inst := { inst with inbox := inbox }
    match message with
    | .command c => ⟨{ inst with handler := some (.of (inst.worker.onCommand c)) }, scene, true⟩
    | .config c => ⟨{ inst with handler := some (.of (inst.worker.onConfig c)) }, scene, true⟩
    | .shutdown => ⟨{ inst with worker := inst.worker.beginDrain }, scene, true⟩

/-- A draining worker waits for the delta update, then for the full update, and then
ends. -/
def moveDraining (inst : Instance) (fired : List JobId) (scene : Scene) : Move :=
  if inst.delta.isSome then inst.moveDelta scene
  else if inst.full.isSome then inst.moveFull fired scene
  else if inst.isClosed then ⟨{ inst with inbox := [] }, refuse inst.inbox scene, false⟩
  else ⟨{ inst with handler := some (.of inst.worker.finishDrain) }, scene, true⟩

def move (inst : Instance) (fired : List JobId) (scene : Scene) : Move :=
  match inst.handler with
  | some thread => inst.moveHandler thread scene
  | none =>
    if inst.worker.draining then inst.moveDraining fired scene
    else
      let afterDelta := inst.moveDelta scene
      if afterDelta.moved then afterDelta
      else
        let afterFull := afterDelta.inst.moveFull fired afterDelta.scene
        if afterFull.moved then afterFull
        else afterFull.inst.moveMessage afterFull.scene

def settleIn : (steps : Nat) → Instance → List JobId → Scene → Instance × Scene
  | 0, inst, _, scene => (inst, scene)
  | steps + 1, inst, fired, scene =>
    let m := inst.move fired scene
    if m.moved then settleIn steps m.inst fired m.scene else (m.inst, m.scene)

/-- Moves on until nothing moves any more. A message leads to its handler and to at
most three cycles with theirs: a delta update, its rerun, and a full update; as much
may be under way already, and the end of the worker takes two more moves. -/
def settle (inst : Instance) (fired : List JobId) (scene : Scene) : Instance × Scene :=
  settleIn (8 * (inst.inbox.length + 2)) inst fired scene

end Instance

end ContactsIndex.Bench
