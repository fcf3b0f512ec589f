import Std.Data.TreeMap
import ContactsIndex.Document.Diff
import ContactsIndex.Error
import ContactsIndex.Schema

/-!
# A document store in memory

The documents by id, the schema they are stored under, and how many of them fit.
A full store takes new content for an id it holds, and no new id.
-/

namespace ContactsIndex

structure DocumentStore where
  documents : Std.TreeMap String Document
  schema : Option Schema
  capacity : Option Nat
  putCalls : Nat
  removeCalls : Nat

namespace DocumentStore

def empty (capacity : Option Nat) : DocumentStore where
  documents := ∅
  schema := none
  capacity := capacity
  putCalls := 0
  removeCalls := 0

def get? (store : DocumentStore) (id : String) : Option Document :=
  store.documents[id]?

def ids (store : DocumentStore) : List String :=
  store.documents.keys

def size (store : DocumentStore) : Nat :=
  store.documents.size

def isFull (store : DocumentStore) : Bool :=
  match store.capacity with
  | none => false
  | some n => n ≤ store.size

/-! ## Batch calls -/

def putOne (store : DocumentStore) (doc : Document) : Status × DocumentStore :=
  if !store.documents.contains doc.id && store.isFull then (.outOfSpace, store)
  else (.ok, { store with documents := store.documents.insert doc.id doc })

def removeOne (store : DocumentStore) (id : String) : Status × DocumentStore :=
  if store.documents.contains id then (.ok, { store with documents := store.documents.erase id })
  else (.notFound, store)

def putAll : List Document → DocumentStore → Outcome × DocumentStore
  | [], store => ([], store)
  | doc :: docs, store =>
    let (status, store) := store.putOne doc
    let (outcome, store) := putAll docs store
    ((doc.id, status) :: outcome, store)

def removeAll : List String → DocumentStore → Outcome × DocumentStore
  | [], store => ([], store)
  | id :: ids, store =>
    let (status, store) := store.removeOne id
    let (outcome, store) := removeAll ids store
    ((id, status) :: outcome, store)

def put (store : DocumentStore) (docs : List Document) : Outcome × DocumentStore :=
  putAll docs { store with putCalls := store.putCalls + 1 }

def remove (store : DocumentStore) (ids : List String) : Outcome × DocumentStore :=
  removeAll ids { store with removeCalls := store.removeCalls + 1 }

def entries (store : DocumentStore) (ids : List String) : List (Option Entry) :=
  ids.map fun id => (store.get? id).map Document.entry

/-! ## Schema -/

def installSchema (store : DocumentStore) (schema : Schema) : DocumentStore :=
  { store with schema := some schema }

/-- Changes the schema, and gives the types whose documents did not survive that. Such
a change is refused unless it is forced; then all documents are dropped. -/
def setSchema (store : DocumentStore) (schema : Schema) (force : Bool) :
    Except StorageError (List String) × DocumentStore :=
  match Schema.compatibility store.schema schema with
  | .incompatible types =>
    if force then (.ok types, { store.installSchema schema with documents := ∅ })
    else (.error (.incompatibleSchema types), store)
  | _ => (.ok [], store.installSchema schema)

end DocumentStore

end ContactsIndex
