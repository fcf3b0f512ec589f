import Std.Data.TreeMap
import ContactsIndex.Scheduler

/-!
# The registry of running instances

A user has a slot, and a slot is filled with at most one instance. Of several
callers that want to start an instance for one user, the first does it; the others
wait for the slot. When the start succeeds they all get that instance. When it
fails, the next one in the queue starts an instance in the same slot, and the caller
takes the slot out of the registry.
-/

namespace ContactsIndex

abbrev CallerId := Nat

/-- Instances are told apart by number, also those of one user. -/
abbrev InstanceId := Nat

abbrev SlotId := Nat

inductive Slot where
  | empty
  | starting (caller : CallerId) (queue : List CallerId)
  | filled (found : InstanceId)
  deriving DecidableEq, Repr

inductive Entered where
  | found (id : InstanceId)
  | start (slot : SlotId)
  | wait (slot : SlotId)
  deriving DecidableEq, Repr

structure Registry where
  users : Std.TreeMap UserId SlotId
  /-- All slots, also those that belong to nobody any more. -/
  slots : Std.TreeMap SlotId Slot
  nextSlot : SlotId

namespace Registry

def empty : Registry :=
  ⟨∅, ∅, 0⟩

def slot (registry : Registry) (id : SlotId) : Slot :=
  registry.slots[id]?.getD .empty

def setSlot (registry : Registry) (id : SlotId) (slot : Slot) : Registry :=
  { registry with slots := registry.slots.insert id slot }

def instance? (registry : Registry) (user : UserId) : Option InstanceId :=
  match registry.users[user]? with
  | none => none
  | some id =>
    match registry.slot id with
    | .filled found => some found
    | _ => none

def userCount (registry : Registry) : Nat :=
  registry.users.keys.countP fun user => (registry.instance? user).isSome

def slotOf (registry : Registry) (user : UserId) : SlotId × Registry :=
  match registry.users[user]? with
  | some id => (id, registry)
  | none =>
    (registry.nextSlot,
      { registry with users := registry.users.insert user registry.nextSlot, nextSlot := registry.nextSlot + 1 })

def join (registry : Registry) (caller : CallerId) (id : SlotId) : Entered × Registry :=
  match registry.slot id with
  | .filled found => (.found found, registry)
  | .empty => (.start id, registry.setSlot id (.starting caller []))
  | .starting first queue => (.wait id, registry.setSlot id (.starting first (queue ++ [caller])))

def enter (registry : Registry) (caller : CallerId) (user : UserId) : Entered × Registry :=
  let (id, registry) := registry.slotOf user
  registry.join caller id

/-- Fills the slot. The callers that were waiting for it get the instance too. -/
def succeed (registry : Registry) (id : SlotId) (found : InstanceId) : List CallerId × Registry :=
  match registry.slot id with
  | .starting _ queue => (queue, registry.setSlot id (.filled found))
  | _ => ([], registry.setSlot id (.filled found))

/-- Gives up the start in this slot; the next caller in the queue, if any, has to start
an instance in it. -/
def release (registry : Registry) (id : SlotId) : Option CallerId × Registry :=
  match registry.slot id with
  | .starting _ (next :: queue) => (some next, registry.setSlot id (.starting next queue))
  | _ => (none, registry.setSlot id .empty)

/-- The user loses the slot if it is still theirs, unless it has been filled. -/
def discard (registry : Registry) (user : UserId) (id : SlotId) : Registry :=
  match registry.slot id with
  | .filled _ => registry
  | _ => if registry.users[user]? = some id then { registry with users := registry.users.erase user } else registry

def fail (registry : Registry) (user : UserId) (id : SlotId) : Option CallerId × Registry :=
  let (next, registry) := registry.release id
  (next, registry.discard user id)

/-- Takes the user's instance out of the registry; a start that is under way goes on. -/
def stop (registry : Registry) (user : UserId) : Option InstanceId × Registry :=
  match registry.instance? user with
  | none => (none, registry)
  | some found => (some found, { registry with users := registry.users.erase user })

end Registry

end ContactsIndex
