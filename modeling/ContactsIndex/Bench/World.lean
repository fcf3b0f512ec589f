import ContactsIndex.Bench.Method
import ContactsIndex.Program.Basic
import ContactsIndex.Scheduler
import ContactsIndex.Settings.Place
import ContactsIndex.Source.AddressBook
import ContactsIndex.Store.Memory

/-!
# Collaborators under test

A world is what one user's indexer talks to: an address book, a document store, a
job scheduler and the place of the settings file, all in memory. Calls to the first
three are logged and numbered per method. A closed gate holds the calls of its
method, and hooks disturb chosen calls: they change the world just before the call
is answered, or the answer itself.
-/

namespace ContactsIndex.Bench

/-! ## Hooks -/

inductive Failure where
  | provider (e : ProviderError)
  | storage (e : StorageError)
  | scheduler (e : SchedulerError)
  deriving DecidableEq, Repr

structure Disturbance where
  failure : Option Failure
  noCursor : Bool
  /-- Entries that are not passed on to the store and get this status. -/
  statuses : List (String × Status)
  short : Option Nat
  rows : Option (List ChangeRow)
  deriving Repr

def Disturbance.none : Disturbance :=
  ⟨Option.none, false, [], Option.none, Option.none⟩

/-- Of two disturbances of one call the later one counts where both say something. -/
def Disturbance.andThen (first second : Disturbance) : Disturbance where
  failure := second.failure <|> first.failure
  noCursor := first.noCursor || second.noCursor
  statuses := second.statuses ++ first.statuses
  short := second.short <|> first.short
  rows := second.rows <|> first.rows

structure Hook where
  method : Method
  nth : Nat
  every : Bool
  moveClock : Int
  upserts : List Contact
  deletes : List String
  cancel : Bool
  storeRemoves : List String
  disturbance : Disturbance

def Hook.concerns (hook : Hook) (method : Method) (nth : Nat) : Bool :=
  hook.method = method && (hook.nth = nth || (hook.every && hook.nth ≤ nth))

/-! ## Gates -/

/-- A call that finds the gate closed waits until it is opened once more. -/
structure Gate where
  closed : Bool
  openings : Nat
  deriving DecidableEq, Repr

structure World where
  book : AddressBook
  store : DocumentStore
  scheduler : JobScheduler
  place : SettingsPlace
  log : List Call
  counts : Method → Nat
  gates : Method → Gate
  hooks : List Hook

namespace World

def empty (capacity : Option Nat) : World where
  book := .empty
  store := .empty capacity
  scheduler := .empty
  place := .missing
  log := []
  counts := fun _ => 0
  gates := fun _ => ⟨false, 0⟩
  hooks := []

def setGate (world : World) (method : Method) (gate : Gate) : World :=
  { world with gates := fun m => if m = method then gate else world.gates m }

def closeGate (world : World) (method : Method) : World :=
  world.setGate method { world.gates method with closed := true }

def openGate (world : World) (method : Method) : World :=
  world.setGate method ⟨false, (world.gates method).openings + 1⟩

def releaseGate (world : World) (method : Method) : World :=
  world.setGate method { world.gates method with openings := (world.gates method).openings + 1 }

def openAllGates (world : World) : World :=
  { world with gates := fun m => ⟨false, (world.gates m).openings + 1⟩ }

def setHooks (world : World) (hooks : List Hook) : World :=
  { world with hooks := hooks, counts := fun _ => 0 }

def seed (world : World) (user : UserId) (docs : List Document) (pending : Option Job) : World :=
  let store := if docs = [] then world.store else (world.store.put docs).2
  let scheduler := match pending with
    | none => world.scheduler
    | some job => world.scheduler.schedule user job
  { world with store := store, scheduler := scheduler }

def installSchema (world : World) (schema : Schema) : World :=
  { world with store := world.store.installSchema schema }

def takeLog (world : World) : List Call × World :=
  (world.log, { world with log := [] })

/-! Obstacles around the settings file. -/

def writeSettings (world : World) (content : List UInt8) : World :=
  { world with place := (world.place.write content).2 }

def blockFile (world : World) : World :=
  { world with place := world.place.obstruct }

/-- Puts a file where the settings folder should be. Where the folder is, there is no way to. -/
def blockFolder (world : World) : Option World :=
  match world.place with
  | .folder _ => none
  | _ => some { world with place := .blocked }

def unblockFolder (world : World) : World :=
  { world with place := if world.place = .blocked then .missing else world.place }

end World

structure Edits where
  clock : Option Int
  upserts : List Contact
  patches : List (String × (Contact → Contact))
  deletes : List String
  available : Option Bool
  hooks : Option (List Hook)

/-! ## Scenes -/

structure Scene where
  clock : Int
  cancelled : Bool
  metrics : Metrics
  answers : List (JobId × JobResult)
  world : World

namespace Scene

/-- The clock as it is read; before the epoch it shows zero. -/
def time (scene : Scene) : Int :=
  max 0 scene.clock

def note (event : Note) (scene : Scene) : Scene :=
  { scene with metrics := scene.metrics.record event }

def answer (job : JobId) (result : JobResult) (scene : Scene) : Scene :=
  { scene with answers := scene.answers ++ [(job, result)] }

def applyHook (scene : Scene) (hook : Hook) : Scene :=
  let scene := { scene with clock := scene.clock + hook.moveClock, cancelled := scene.cancelled || hook.cancel }
  let book := hook.upserts.foldl (fun book c => book.upsert scene.clock c) scene.world.book
  let book := hook.deletes.foldl (fun book id => book.delete scene.clock id) book
  let store := if hook.storeRemoves = [] then scene.world.store else (scene.world.store.remove hook.storeRemoves).2
  { scene with world := { scene.world with book := book, store := store } }

def issue (scene : Scene) (method : Method) (c : Call) : Nat × Scene :=
  let nth := scene.world.counts method + 1
  let world := { scene.world with
    log := scene.world.log ++ [c]
    counts := fun m => if m = method then nth else scene.world.counts m }
  (nth, { scene with world := world })

def edit (scene : Scene) (edits : Edits) : Scene :=
  let scene := { scene with clock := edits.clock.getD scene.clock }
  let book := edits.upserts.foldl (fun book c => book.upsert scene.clock c) scene.world.book
  let book := edits.patches.foldl (fun book (id, change) => book.update scene.clock id change) book
  let book := edits.deletes.foldl (fun book id => book.delete scene.clock id) book
  let book := { book with available := edits.available.getD book.available }
  let world := { scene.world with book := book }
  { scene with world := (edits.hooks.map world.setHooks).getD world }

/-! ## Answering calls -/

def providerFailure : Option Failure → Option ProviderError
  | some (.provider e) => some e
  | _ => none

def storageFailure : Option Failure → Option StorageError
  | some (.storage e) => some e
  | _ => none

def schedulerFailure : Option Failure → Option SchedulerError
  | some (.scheduler e) => some e
  | _ => none

def withBook {α : Type} (scene : Scene) (d : Disturbance) (given : Option α) (query : AddressBook → Option α × AddressBook) :
    Except ProviderError (Option α) × Scene :=
  match providerFailure d.failure, d.noCursor, given with
  | some e, _, _ => (.error e, scene)
  | none, true, _ => (.ok none, scene)
  | none, false, some a => (.ok (some a), scene)
  | none, false, none =>
    let (rows, book) := query scene.world.book
    (.ok rows, { scene with world := { scene.world with book := book } })

def withStore {α : Type} (scene : Scene) (d : Disturbance) (call : DocumentStore → Except StorageError α × DocumentStore) :
    Except StorageError α × Scene :=
  match storageFailure d.failure with
  | some e => (.error e, scene)
  | none =>
    let (reply, store) := call scene.world.store
    (reply, { scene with world := { scene.world with store := store } })

def withScheduler {α : Type} (scene : Scene) (d : Disturbance) (call : JobScheduler → α × JobScheduler) :
    Except SchedulerError α × Scene :=
  match schedulerFailure d.failure with
  | some e => (.error e, scene)
  | none =>
    let (reply, scheduler) := call scene.world.scheduler
    (.ok reply, { scene with world := { scene.world with scheduler := scheduler } })

/-- The outcome for all ids, from the statuses that were set beforehand and the
outcome for the others. -/
def mergeOutcome (statuses : List (String × Status)) : List String → Outcome → Outcome
  | [], _ => []
  | id :: ids, outcome =>
    match statuses.lookup id, outcome with
    | some status, _ => (id, status) :: mergeOutcome statuses ids outcome
    | none, entry :: rest => entry :: mergeOutcome statuses ids rest
    | none, [] => mergeOutcome statuses ids []

def withPlace {α : Type} (scene : Scene) (change : SettingsPlace → α × SettingsPlace) : α × Scene :=
  let (reply, place) := change scene.world.place
  (reply, { scene with world := { scene.world with place := place } })

def respond (scene : Scene) (d : Disturbance) : (c : Call) → c.Reply × Scene
  | .updated since limit => scene.withBook d d.rows (·.queryUpdated since limit)
  | .deleted since => scene.withBook d d.rows (·.queryDeleted since)
  | .contacts ids => scene.withBook d none (·.queryContacts ids)
  | .put docs => scene.withStore d fun store =>
    let (outcome, store) := store.put (docs.filter fun doc => (d.statuses.lookup doc.id).isNone)
    (.ok (mergeOutcome d.statuses (docs.map (·.id)) outcome), store)
  | .remove ids => scene.withStore d fun store =>
    let (outcome, store) := store.remove (ids.filter fun id => (d.statuses.lookup id).isNone)
    (.ok (mergeOutcome d.statuses ids outcome), store)
  | .entries ids => scene.withStore d fun store =>
    (.ok ((store.entries ids).take (d.short.getD ids.length)), store)
  | .listIds => scene.withStore d fun store => (.ok store.ids, store)
  | .getSchema => scene.withStore d fun store => (.ok store.schema, store)
  | .setSchema schema force => scene.withStore d (·.setSchema schema force)
  | .schedule user job => scene.withScheduler d fun s => ((), s.schedule user job)
  | .cancelJob user => scene.withScheduler d (·.cancel user)
  | .pendingJob user => scene.withScheduler d fun s => (s.pending? user, s)
  | .makeFolder => scene.withPlace fun place =>
    let (made, place) := place.makeFolder
    (if made then .ok () else .error .io, place)
  | .loadSettings => scene.withPlace fun place => (place.load, place)
  | .persist settings => scene.withPlace (·.persist settings)

def perform (scene : Scene) (method : Method) (nth : Nat) (c : Call) : c.Reply × Scene :=
  let hooks := scene.world.hooks.filter (·.concerns method nth)
  let scene := hooks.foldl applyHook scene
  scene.respond ((hooks.map (·.disturbance)).foldl Disturbance.andThen .none) c

def reply (c : Call) (scene : Scene) : c.Reply × Scene :=
  match methodOf c with
  | none => scene.respond .none c
  | some method =>
    let (nth, scene) := scene.issue method c
    scene.perform method nth c

def surroundings : Program.Surroundings Scene where
  clock := time
  token := cancelled
  note := note
  answer := answer
  reply := reply

end Scene

end ContactsIndex.Bench
