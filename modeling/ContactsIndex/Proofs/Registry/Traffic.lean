import ContactsIndex.Registry

/-!
# Callers of the registry

Any number of callers start and stop instances through one registry at the same time. A call
that starts an instance takes the slot of its user in hand, asks for what is in it, and then
waits, carries out a start, or goes on with the instance that it found. A start that fails
passes the slot on before it takes it out of the registry; in between, others may do anything.
A `Traffic` is the registry with all callers and all instances, and an `Event` is what one of
them does next.
-/

namespace ContactsIndex

inductive CallStage where
  | away
  | holding (slot : SlotId)
  | waiting (slot : SlotId)
  | starting (slot : SlotId)
  /-- The start has failed, and the slot is still to be taken out of the registry. -/
  | failing (slot : SlotId)
  | found (slot : SlotId) (id : InstanceId)
  | told (slot : SlotId) (id : InstanceId)
  | refused
  deriving DecidableEq

namespace CallStage

def slot? : CallStage → Option SlotId
  | away | refused => none
  | holding slot | waiting slot | starting slot | failing slot | found slot _ | told slot _ => some slot

def instance? : CallStage → Option InstanceId
  | found _ id | told _ id => some id
  | _ => none

end CallStage

inductive Life where
  | running
  /-- Out of the registry, with cycles still to end. -/
  | stopping
  | ended
  deriving DecidableEq

structure Installed where
  user : UserId
  slot : SlotId
  life : Life

structure Traffic where
  registry : Registry
  stage : CallerId → CallStage
  instances : List Installed
  owner : SlotId → UserId
  /-- The slots that failed starts have taken out of the registry. -/
  discarded : List SlotId

namespace Traffic

inductive Event where
  | call (caller : CallerId)
  | join (caller : CallerId)
  | started (caller : CallerId)
  | failed (caller : CallerId)
  | discarded (caller : CallerId)
  | told (caller : CallerId)
  | stop (user : UserId)
  | ended (id : InstanceId)

def quiet : Traffic where
  registry := .empty
  stage := fun _ => .away
  instances := []
  owner := fun _ => 0
  discarded := []

def moved (t : Traffic) (c : CallerId) (stage : CallStage) : CallerId → CallStage :=
  fun d => if d = c then stage else t.stage d

def setLife (t : Traffic) (i : InstanceId) (life : Life) : List Installed :=
  t.instances.modify i fun x => { x with life := life }

variable (userOf : CallerId → UserId)

def call (t : Traffic) (c : CallerId) : Traffic :=
  let (id, registry) := t.registry.slotOf (userOf c)
  { t with
    registry := registry
    stage := t.moved c (.holding id)
    owner := fun s => if s = id then userOf c else t.owner s }

def join (t : Traffic) (c : CallerId) (id : SlotId) : Traffic :=
  let (entered, registry) := t.registry.join c id
  let stage : CallStage := match entered with
    | .found i => .found id i
    | .start id => .starting id
    | .wait id => .waiting id
  { t with registry := registry, stage := t.moved c stage }

def start (t : Traffic) (c : CallerId) (id : SlotId) : Traffic :=
  let i := t.instances.length
  let (queue, registry) := t.registry.succeed id i
  { t with
    registry := registry
    stage := fun d => if d = c ∨ d ∈ queue then .found id i else t.stage d
    instances := t.instances ++ [⟨userOf c, id, .running⟩] }

def fail (t : Traffic) (c : CallerId) (id : SlotId) : Traffic :=
  let (next, registry) := t.registry.release id
  { t with
    registry := registry
    stage := fun d => if d = c then .failing id else if next = some d then .starting id else t.stage d }

def discard (t : Traffic) (c : CallerId) (id : SlotId) : Traffic :=
  let registry := t.registry.discard (userOf c) id
  { t with
    registry := registry
    stage := t.moved c .refused
    discarded :=
      if registry.users[userOf c]? = t.registry.users[userOf c]? then t.discarded else id :: t.discarded }

def tell (t : Traffic) (c : CallerId) (id : SlotId) (i : InstanceId) : Traffic :=
  { t with stage := t.moved c (.told id i) }

def stop (t : Traffic) (user : UserId) : Traffic :=
  let (found, registry) := t.registry.stop user
  { t with
    registry := registry
    instances := match found with
      | none => t.instances
      | some i => t.setLife i .stopping }

def finish (t : Traffic) (i : InstanceId) : Traffic :=
  { t with instances := t.setLife i .ended }

def step (t : Traffic) : Event → Option Traffic
  | .call c =>
    match t.stage c with
    | .away => some (t.call userOf c)
    | _ => none
  | .join c =>
    match t.stage c with
    | .holding id => some (t.join c id)
    | _ => none
  | .started c =>
    match t.stage c with
    | .starting id => some (t.start userOf c id)
    | _ => none
  | .failed c =>
    match t.stage c with
    | .starting id => some (t.fail c id)
    | _ => none
  | .discarded c =>
    match t.stage c with
    | .failing id => some (t.discard userOf c id)
    | _ => none
  | .told c =>
    match t.stage c with
    | .found id i => some (t.tell c id i)
    | _ => none
  | .stop user => some (t.stop user)
  | .ended i => if t.instances[i]?.map (·.life) = some .stopping then some (t.finish i) else none

def run (t : Traffic) : List Event → Option Traffic
  | [] => some t
  | event :: events => (t.step userOf event).bind (·.run events)

end Traffic

end ContactsIndex
