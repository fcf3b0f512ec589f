import ContactsIndex.Document.OfContact
import ContactsIndex.Source.Query
import ContactsIndex.Update.Batcher

/-!
# Updating the corpus

A list of candidates, contacts to delete from the index and contacts to bring up
to date, is worked off in order. Contacts are read and compared in chunks of the
size of an update batch. The cancellation token is looked at before each candidate
and once more at the end; a cycle that is cancelled sends what it has gathered, and
the ids of the chunk that is not yet read are dropped.
-/

namespace ContactsIndex

inductive Candidate where
  | updated (id : String)
  | deleted (id : String)
  deriving DecidableEq, Repr

def Candidate.deletedIds (candidates : List Candidate) : List String :=
  candidates.filterMap fun
    | .updated _ => none
    | .deleted id => some id

namespace Corpus

/-- Compares each contact with what is stored at its place in `stored`. An id that the
cycle deletes is compared with nothing, so that it is indexed from scratch. -/
def compare (deleted : List String) (now : Int) (contacts : List Contact) (stored : List (Option Entry)) :
    List Diffed :=
  contacts.zipIdx.map fun (contact, i) =>
    (Document.ofContact contact now).diff (if deleted.contains contact.id then none else stored[i]?.join)

def addUpdates (policy : Policy) : List Diffed → Work → Program (Progress Unit)
  | [], work => return (.ok (), work)
  | diffed :: rest, work => do
    match ← Batcher.addUpdate policy diffed work with
    | (.error e, work) => return (.error e, work)
    | (.ok _, work) => addUpdates policy rest work

def recordFailures (status : Status) (count : Nat) (work : Work) : Work :=
  { work with stats := Nat.repeat (·.recordUpdate status) count work.stats }

def indexChunk (policy : Policy) (deleted ids : List String) (work : Work) : Program (Progress Unit) := do
  match ← Source.readContacts ids with
  | .error e => return (.error (.source e), work)
  | .ok contacts =>
    let missing := work.stats.missing + (ids.length - contacts.length)
    let work := { work with stats := { work.stats with missing := missing } }
    if contacts = [] then return (.ok (), work)
    else
      match ← Program.ask (.entries (contacts.map (·.id))) with
      | .error e =>
        let work := recordFailures e.status contacts.length work
        if policy.keepGoing then return (.ok (), work)
        else return (.error (.aborted work.stats.failed), work)
      | .ok stored => addUpdates policy (compare deleted (← Program.readClock) contacts stored) work

def conclude (policy : Policy) (reason : FlushReason) (completion : Completion) (work : Work) : Program (Progress Completion) := do
  match ← Batcher.flush policy reason work with
  | (.error e, work) => return (.error e, work)
  | (.ok _, work) => return (.ok completion, work)

def chunkSize (policy : Policy) : Nat :=
  max 1 policy.sizes.updates

def applyFrom (policy : Policy) (deleted : List String) : List Candidate → List String → Work → Program (Progress Completion)
  | [], chunk, work => do
    if ← Program.isCancelled then conclude policy .cancelled .cancelled work
    else if chunk = [] then conclude policy .endOfCycle .completed work
    else
      match ← indexChunk policy deleted chunk work with
      | (.error e, work) => return (.error e, work)
      | (.ok _, work) => conclude policy .endOfCycle .completed work
  | .deleted id :: rest, chunk, work => do
    if ← Program.isCancelled then conclude policy .cancelled .cancelled work
    else
      let work := { work with stats := { work.stats with toDelete := work.stats.toDelete + 1 } }
      match ← Batcher.addDelete policy id work with
      | (.error e, work) => return (.error e, work)
      | (.ok _, work) => applyFrom policy deleted rest chunk work
  | .updated id :: rest, chunk, work => do
    if ← Program.isCancelled then conclude policy .cancelled .cancelled work
    else
      let work := { work with stats := { work.stats with toUpdate := work.stats.toUpdate + 1 } }
      let chunk := chunk ++ [id]
      if chunk.length < chunkSize policy then applyFrom policy deleted rest chunk work
      else
        match ← indexChunk policy deleted chunk work with
        | (.error e, work) => return (.error e, work)
        | (.ok _, work) => applyFrom policy deleted rest [] work

def apply (policy : Policy) (candidates : List Candidate) (stats : Stats) :
    Program (Except UpdateError Completion × Stats) := do
  let (result, work) ← applyFrom policy (Candidate.deletedIds candidates) candidates [] ⟨.empty, stats⟩
  return (result, work.stats)

def update (policy : Policy) (wanted unwanted : List String) (stats : Stats) :
    Program (Except UpdateError Completion × Stats) :=
  apply policy (unwanted.map .deleted ++ wanted.map .updated) stats

end Corpus

end ContactsIndex
