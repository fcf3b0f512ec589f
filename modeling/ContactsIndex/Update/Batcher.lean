import ContactsIndex.Config
import ContactsIndex.Program.Basic

/-!
# The batcher

Gathers documents to write and ids to delete, and sends both to the store when
either batch is full. Deletes are sent before writes, so that an id that is deleted
and written in one flush ends up stored. A call that fails as a whole counts as a
failure of each of its entries.
-/

namespace ContactsIndex

structure Policy where
  sizes : BatchSizes
  keepGoing : Bool
  deriving DecidableEq, Repr

structure Batcher where
  updates : Batch Document
  deletes : Batch String
  /-- The gathered documents that the store has nothing for. -/
  newIds : List String
  flushes : Nat
  deriving DecidableEq, Repr

def Batcher.empty : Batcher :=
  ⟨.empty, .empty, [], 0⟩

structure Work where
  batcher : Batcher
  stats : Stats
  deriving DecidableEq, Repr

/-- What a step of a cycle gives: a value or the error that ends the cycle, and in
either case the work as it stands. -/
abbrev Progress (α : Type) := Except UpdateError α × Work

/-- Counts the answer to a batch of writes; a stored document counts as inserted
when it is among the new ones. -/
def Stats.recordPuts (stats : Stats) (newIds : List String) (outcome : Outcome) : Stats :=
  outcome.foldl (fun stats entry =>
    let stats := stats.recordUpdate entry.2
    if entry.2.isOk && newIds.contains entry.1 then { stats with inserted := stats.inserted + 1 } else stats) stats

def Stats.recordRemoves (stats : Stats) (outcome : Outcome) : Stats :=
  outcome.foldl (fun stats entry => stats.recordDelete entry.2) stats

namespace Batcher

def sendDeletes (ids : List String) : Program Outcome :=
  if ids = [] then return []
  else do
    match ← Program.ask (.remove ids) with
    | .ok outcome => return outcome
    | .error e => return .ofError ids e

def sendUpdates (docs : List Document) : Program Outcome :=
  if docs = [] then return []
  else do
    match ← Program.ask (.put docs) with
    | .ok outcome => return outcome
    | .error e => return .ofError (docs.map (·.id)) e

def flush (policy : Policy) (reason : FlushReason) (work : Work) : Program (Progress (Option FlushReason)) :=
  let docs := work.batcher.updates.items
  let ids := work.batcher.deletes.items
  if docs = [] ∧ ids = [] then return (.ok none, work)
  else do
    let removed ← sendDeletes ids
    let written ← sendUpdates docs
    let stats := (work.stats.recordPuts work.batcher.newIds written).recordRemoves removed
    let failed := stats.failed - work.stats.failed
    Program.record (.flush reason docs.length ids.length failed)
    let work := ⟨{ empty with flushes := work.batcher.flushes + 1 }, stats⟩
    if failed > 0 ∧ policy.keepGoing = false then return (.error (.aborted stats.failed), work)
    else return (.ok (some reason), work)

def addUpdate (policy : Policy) (diffed : Diffed) (work : Work) : Program (Progress (Option FlushReason)) :=
  match diffed.indexable with
  | none => return (.ok none, { work with stats := { work.stats with skipped := work.stats.skipped + 1 } })
  | some doc =>
    let newIds := if diffed.decision = .new then doc.id :: work.batcher.newIds else work.batcher.newIds
    let batcher := { work.batcher with updates := work.batcher.updates.push doc, newIds := newIds }
    let work := { work with batcher := batcher }
    if batcher.updates.isFull policy.sizes.updates then flush policy .updateCount work else return (.ok none, work)

def addDelete (policy : Policy) (id : String) (work : Work) : Program (Progress (Option FlushReason)) :=
  let batcher := { work.batcher with deletes := work.batcher.deletes.push id }
  let work := { work with batcher := batcher }
  if batcher.deletes.isFull policy.sizes.deletes then flush policy .deleteCount work else return (.ok none, work)

end Batcher

end ContactsIndex
