import ContactsIndex.Bench.Instance
import ContactsIndex.Registry

/-!
# Scenarios

Several users, each with a world of their own, share a clock, the metrics and the
configuration. Instances are started for them one by one, or through a registry.
After each operation the scenario settles: everything goes on until it has ended or
is held at a gate.
-/

namespace ContactsIndex.Bench

structure Starter where
  caller : CallerId
  user : UserId
  slot : SlotId
  thread : Option (Thread (Except IndexerError (Settings × InitialCycle)))

inductive Finished where
  | job (id : JobId) (result : Except IndexerError JobResult)
  | start (user : UserId) (result : Except IndexerError Unit)

/-- Jobs are reported by number, and before starts. -/
def Finished.before : Finished → Finished → Bool
  | job a _, job b _ => a ≤ b
  | start _ _, job _ _ => false
  | _, _ => true

structure Seat where
  user : UserId
  world : World
  handle : Option InstanceId
  latest : Option InstanceId

structure Scenario where
  clock : Int
  metrics : Metrics
  config : Config
  configOpen : Bool
  managed : Bool
  registry : Registry
  seats : List Seat
  instances : List Instance
  starters : List Starter
  given : List (CallerId × Except IndexerError InstanceId)
  nextCaller : CallerId
  background : List (CallerId × UserId)
  nextJob : JobId
  waiting : List (JobId × InstanceId)
  fired : List JobId
  finished : List Finished

namespace Scenario

/-! ## Parts -/

def seat? (s : Scenario) (user : UserId) : Option Seat :=
  s.seats.find? (·.user = user)

def setSeat (s : Scenario) (seat : Seat) : Scenario :=
  { s with seats := s.seats.map fun other => if other.user = seat.user then seat else other }

def modifySeat (s : Scenario) (user : UserId) (change : Seat → Seat) : Scenario :=
  { s with seats := s.seats.map fun seat => if seat.user = user then change seat else seat }

def modifyWorld (s : Scenario) (user : UserId) (change : World → World) : Scenario :=
  s.modifySeat user fun seat => { seat with world := change seat.world }

def setInstance (s : Scenario) (id : InstanceId) (inst : Instance) : Scenario :=
  { s with instances := s.instances.set id inst }

def handle? (s : Scenario) (user : UserId) : Option InstanceId :=
  (s.seat? user).bind (·.handle)

def shown? (s : Scenario) (user : UserId) : Option Instance :=
  ((s.seat? user).bind (·.latest)).bind fun id => s.instances[id]?

def sceneOf (s : Scenario) (world : World) : Scene :=
  ⟨s.clock, false, s.metrics, [], world⟩

def absorb (s : Scenario) (user : UserId) (scene : Scene) : Scenario :=
  let answered := scene.answers.map (·.1)
  { s.modifyWorld user fun _ => scene.world with
    clock := scene.clock
    metrics := scene.metrics
    waiting := s.waiting.filter fun w => !answered.contains w.1
    finished := s.finished ++ scene.answers.map fun (job, result) => .job job (.ok result) }

def edit (s : Scenario) (user : UserId) (edits : Edits) : Scenario :=
  match s.seat? user with
  | none => s
  | some seat => s.absorb user ((s.sceneOf seat.world).edit edits)

def begin (clock : Int) (config : Config) (managed : Bool) (worlds : List (UserId × World)) : Scenario where
  clock := clock
  metrics := .empty
  config := config
  configOpen := true
  managed := managed
  registry := .empty
  seats := worlds.map fun (user, world) => ⟨user, world, none, none⟩
  instances := []
  starters := []
  given := []
  nextCaller := 0
  background := []
  nextJob := 0
  waiting := []
  fired := []
  finished := []

/-! ## Starting instances -/

def launch (s : Scenario) (user : UserId) (prepared : Settings × InitialCycle) : InstanceId × Scenario :=
  let inst := Instance.launch (.new user prepared.1 s.config) prepared.2
  (s.instances.length, { s with instances := s.instances ++ [inst] })

def give (s : Scenario) (caller : CallerId) (user : UserId) (result : Except IndexerError InstanceId) : Scenario :=
  let s := { s with given := s.given ++ [(caller, result)] }
  let s := match result with
    | .error _ => s
    | .ok id =>
      let s := { s with metrics := s.metrics.record (.activeUsers s.registry.userCount) }
      s.modifySeat user fun seat => { seat with handle := some id, latest := some id }
  if s.background.any (·.1 = caller) then
    { s with finished := s.finished ++ [.start user (result.map fun _ => ())] }
  else s

def newStart : Thread (Except IndexerError (Settings × InitialCycle)) :=
  .of Startup.prepare

def enter (s : Scenario) (caller : CallerId) (user : UserId) : Scenario :=
  let (entered, registry) := s.registry.enter caller user
  let s := { s with registry := registry }
  match entered with
  | .found id => s.give caller user (.ok id)
  | .start slot => { s with starters := s.starters ++ [⟨caller, user, slot, some newStart⟩] }
  | .wait slot => { s with starters := s.starters ++ [⟨caller, user, slot, none⟩] }

def conclude (s : Scenario) (starter : Starter) (result : Except IndexerError (Settings × InitialCycle)) : Scenario :=
  let s := { s with starters := s.starters.filter (·.caller ≠ starter.caller) }
  match result with
  | .ok prepared =>
    let (id, s) := s.launch starter.user prepared
    let (queue, registry) := s.registry.succeed starter.slot id
    let s := { s with registry := registry, starters := s.starters.filter fun other => !queue.contains other.caller }
    (starter.caller :: queue).foldl (fun s caller => s.give caller starter.user (.ok id)) s
  | .error e =>
    let (next, registry) := s.registry.fail starter.user starter.slot
    let starters := s.starters.map fun other =>
      if some other.caller = next then { other with thread := some newStart } else other
    { s with registry := registry, starters := starters }.give starter.caller starter.user (.error e)

/-! ## Settling -/

def advanceStarter (s : Scenario) (starter : Starter) : Bool × Scenario :=
  match starter.thread, s.seat? starter.user with
  | some thread, some seat =>
    match thread.advance (s.sceneOf seat.world) with
    | (.held thread, scene) =>
      let starters := s.starters.map fun other =>
        if other.caller = starter.caller then { other with thread := some thread } else other
      (false, { s.absorb starter.user scene with starters := starters })
    | (.ended result, scene) => (true, (s.absorb starter.user scene).conclude starter result)
  | _, _ => (false, s)

/-- Lets the starts go on until all are held or waiting. Each one that ends leaves
one caller less. -/
def settleStarters : (callers : Nat) → Scenario → Scenario
  | 0, s => s
  | callers + 1, s =>
    let (ended, s) := s.starters.foldl (fun (ended, s) starter =>
      if ended then (ended, s) else s.advanceStarter starter) (false, s)
    if ended then settleStarters callers s else s

def settleInstance (s : Scenario) (id : InstanceId) : Scenario :=
  match s.instances[id]? with
  | none => s
  | some inst =>
    match s.seat? inst.worker.user with
    | none => s
    | some seat =>
      let (inst, scene) := inst.settle s.fired (s.sceneOf seat.world)
      (s.absorb seat.user scene).setInstance id inst

def settleInstances (s : Scenario) : Scenario :=
  (List.range s.instances.length).foldl settleInstance s

def isShared (s : Scenario) (id : InstanceId) : Bool :=
  s.seats.any (s.registry.instance? ·.user = some id) || s.waiting.any (·.2 = id)

def abandon (s : Scenario) : Scenario :=
  { s with instances := s.instances.zipIdx.map fun (inst, id) =>
      if s.isShared id || s.seats.any (·.handle = some id) || inst.isLeaving then inst else inst.send .shutdown }

def settle (s : Scenario) : Scenario :=
  (settleStarters (s.starters.length + 1) s).settleInstances.abandon.settleInstances

def heldCalls (s : Scenario) (user : UserId) : List Issued :=
  (s.instances.filter (·.worker.user = user)).flatMap (·.heldCalls)

/-- Whether the scenario has come to rest: as many calls of each user wait at gates as
the user's instance shows cycles under way. A cycle that waits at two gates at once
never comes to rest, nor does a handler that waits at one while no cycle is shown. -/
def isSettled (s : Scenario) : Bool :=
  s.seats.all fun seat =>
    (s.heldCalls seat.user).length = ((s.shown? seat.user).map (·.worker.published.cycles)).getD 0

/-! ## Operations -/

inductive StartResult where
  | started
  | same
  | failed (e : IndexerError)
  | held
  deriving DecidableEq, Repr

/-- An instance that takes the place of another one writes its settings while the
other one ends, so that after the first completed cycle its state is the one to see. -/
def showState (s : Scenario) (id : InstanceId) : Scenario :=
  match s.instances[id]? with
  | none => s
  | some inst =>
    let snapshot := inst.worker.published
    if snapshot.completed = 0 then s
    else { s with metrics := s.metrics.record (.state inst.worker.user snapshot.state.code) }

def startAlone (s : Scenario) (user : UserId) : StartResult × Scenario :=
  match s.seat? user with
  | none => (.started, s)
  | some seat =>
    match Thread.finish? Startup.prepare (s.sceneOf seat.world) with
    | none => (.held, s)
    | some (.error e, scene) => (.failed e, s.absorb user scene)
    | some (.ok prepared, scene) =>
      let (id, s) := (s.absorb user scene).launch user prepared
      let s := (s.modifySeat user fun seat => { seat with handle := some id, latest := some id }).settle
      (.started, s.showState id)

def callRegistry (s : Scenario) (user : UserId) (count : Nat) : List CallerId × Scenario :=
  let callers := (List.range count).map (s.nextCaller + ·)
  (callers, callers.foldl (fun s caller => s.enter caller user) { s with nextCaller := s.nextCaller + count })

def resultOf (s : Scenario) (caller : CallerId) : Option (Except IndexerError InstanceId) :=
  s.given.lookup caller

def start (s : Scenario) (user : UserId) : StartResult × Scenario :=
  if s.managed then
    let before := s.handle? user
    let (callers, s) := s.callRegistry user 1
    let s := s.settle
    match callers.head?.bind s.resultOf with
    | some (.ok id) => (if before = some id then .same else .started, s)
    | some (.error e) => (.failed e, s)
    | none => (.held, s)
  else s.startAlone user

/-- Several callers ask for the user's instance at once: do all get the same one?
`none` if they are held at a gate. -/
def startTogether (s : Scenario) (user : UserId) (count : Nat) : Option Bool × Scenario :=
  let (callers, s) := s.callRegistry user count
  let s := s.settle
  let results := callers.map s.resultOf
  if results.any (·.isNone) then (none, s)
  else
    let ids := results.map fun result => result.bind (·.toOption)
    (some (ids.all fun id => id.isSome && id = ids.head?.join), s)

def startInBackground (s : Scenario) (user : UserId) : Scenario :=
  let s := { s with background := s.background ++ [(s.nextCaller, user)] }
  (s.callRegistry user 1).2.settle

inductive Target where
  | reached (id : InstanceId)
  | unknown (e : IndexerError)
  | nobody

def target (s : Scenario) (user : UserId) : Target :=
  if s.managed then
    match s.registry.instance? user with
    | some id => .reached id
    | none => .unknown (.unknownUser user)
  else
    match s.handle? user with
    | some id => .reached id
    | none => .nobody

def isClosed (s : Scenario) (id : InstanceId) : Bool :=
  s.instances[id]?.all (·.isClosed)

def sendTo (s : Scenario) (id : InstanceId) (message : Message) : Scenario :=
  { s with instances := s.instances.modify id (·.send message) }

def command (s : Scenario) (user : UserId) (c : Command) : Option (Except IndexerError Unit) × Scenario :=
  match s.target user with
  | .nobody => (none, s)
  | .unknown e => (some (.error e), s)
  | .reached id =>
    if s.isClosed id then (some (.error (.shutDown user)), s)
    else (some (.ok ()), (s.sendTo id (.command c)).settle)

def fullJob (s : Scenario) (user : UserId) (cancelled : Bool) : Option JobId × Scenario :=
  let job := s.nextJob
  let begun := { s with nextJob := job + 1, fired := if cancelled then job :: s.fired else s.fired }
  match s.target user with
  | .nobody => (none, s)
  | .unknown e => (some job, { begun with finished := begun.finished ++ [.job job (.error e)] })
  | .reached id =>
    if s.isClosed id then (some job, { begun with finished := begun.finished ++ [.job job (.ok .cancelled)] })
    else
      let begun := { begun with waiting := begun.waiting ++ [(job, id)] }
      (some job, (begun.sendTo id (.command (.runFullUpdate (some job)))).settle)

def cancelJob (s : Scenario) (job : JobId) : Scenario :=
  { s with fired := job :: s.fired }.settle

inductive IdleResult where
  | idle (settings : Settings)
  | busy
  | closed

def idle (s : Scenario) (user : UserId) : Option IdleResult :=
  (s.handle? user).bind fun id => s.instances[id]?.map fun inst =>
    if inst.isClosed then .closed
    else if inst.isBusy then .busy
    else .idle inst.worker.published.settings

/-- Shuts an instance down: the tokens of held cycles are fired, the gates of the user
are opened, and the cycles come to their end. -/
def shutInstance (s : Scenario) (user : UserId) (id : InstanceId) : Scenario :=
  let s := if s.isClosed id then s else (s.sendTo id .shutdown).settle
  (s.modifyWorld user (·.openAllGates)).settle

def shutdown (s : Scenario) (user : UserId) : Option Scenario :=
  (s.handle? user).map (s.shutInstance user)

def stop (s : Scenario) (user : UserId) : Except IndexerError Unit × Scenario :=
  match s.registry.stop user with
  | (none, _) => (.error (.unknownUser user), s)
  | (some id, registry) =>
    let s := { s with registry := registry, metrics := s.metrics.record (.activeUsers registry.userCount) }
    (.ok (), s.shutInstance user id)

def shutdownAll (s : Scenario) : Scenario :=
  let users := s.seats.map (·.user)
  let s := users.foldl (fun s user =>
    if s.managed then (s.stop user).2 else (s.shutdown user).getD s) s
  (users.foldl (fun s user => s.modifyWorld user (·.openAllGates)) s).settle

inductive DropResult where
  | dropped
  | held
  deriving DecidableEq, Repr

/-- Drops the user's handle unless somebody else holds the instance too, and opens the
gates of the user. -/
def dropHandle (s : Scenario) (user : UserId) : Option (DropResult × Scenario) :=
  (s.handle? user).map fun id =>
    if s.isShared id then (.held, s)
    else
      let s := (s.modifySeat user fun seat => { seat with handle := none }).settle
      (.dropped, (s.modifyWorld user (·.openAllGates)).settle)

def publish (s : Scenario) (config : Config) : Scenario :=
  if s.configOpen then
    let instances := s.instances.map fun inst => if inst.isClosed then inst else inst.reconfigure config
    { s with config := config, instances := instances }.settle
  else s

def closeConfig (s : Scenario) : Scenario :=
  { s with configOpen := false }

def changeGate (s : Scenario) (user : UserId) (change : World → World) : Scenario :=
  (s.modifyWorld user change).settle

/-! ## Reports -/

def takeLog (s : Scenario) (user : UserId) : List Call × Scenario :=
  match s.seat? user with
  | none => ([], s)
  | some seat => (seat.world.log, s.setSeat { seat with world := { seat.world with log := [] } })

def takeFinished (s : Scenario) : List Finished × Scenario :=
  (s.finished.mergeSort Finished.before, { s with finished := [] })

end Scenario

end ContactsIndex.Bench
