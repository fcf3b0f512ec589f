import Std.Data.TreeMap
import ContactsIndex.Contact
import ContactsIndex.Source.Listing

/-!
# The address book

A contacts provider that lives in memory. Every change takes a stamp that is
later than all stamps before it, even when the clock stands still or goes back:
the clock's time if that is later, and else the next number. A deleted contact
leaves a row in the deletion log. While no cursor is available, queries find
nothing to read from.
-/

namespace ContactsIndex

structure AddressBook where
  contacts : Std.TreeMap String Contact
  /-- The deletion log, the oldest row first. -/
  deletions : List ChangeRow
  lastStamp : Int
  available : Bool
  updatedQueries : Nat
  deletedQueries : Nat
  contactQueries : Nat

namespace AddressBook

def empty : AddressBook where
  contacts := ∅
  deletions := []
  lastStamp := 0
  available := true
  updatedQueries := 0
  deletedQueries := 0
  contactQueries := 0

def nextStamp (book : AddressBook) (now : Int) : Int :=
  max (max 0 now) (book.lastStamp + 1)

def get? (book : AddressBook) (id : String) : Option Contact :=
  book.contacts[id]?

/-! ## Changes -/

def upsert (book : AddressBook) (now : Int) (contact : Contact) : AddressBook :=
  let stamp := book.nextStamp now
  { book with
    lastStamp := stamp
    contacts := book.contacts.insert contact.id { contact with lastUpdated := stamp } }

/-- Edits the contact under `id`. An unknown id uses up a stamp too. -/
def update (book : AddressBook) (now : Int) (id : String) (edit : Contact → Contact) : AddressBook :=
  let stamp := book.nextStamp now
  match book.get? id with
  | none => { book with lastStamp := stamp }
  | some contact =>
    { book with
      lastStamp := stamp
      contacts := book.contacts.insert id { edit contact with lastUpdated := stamp } }

def delete (book : AddressBook) (now : Int) (id : String) : AddressBook :=
  match book.get? id with
  | none => book
  | some _ =>
    let stamp := book.nextStamp now
    { book with
      lastStamp := stamp
      contacts := book.contacts.erase id
      deletions := book.deletions ++ [⟨id, stamp⟩] }

/-! ## Queries -/

def updatedRows (book : AddressBook) (since : Int) (limit : Limit) : List ChangeRow :=
  let rows := (book.contacts.values.filter (since < ·.lastUpdated)).map fun c => ⟨c.id, c.lastUpdated⟩
  limit.take (rows.mergeSort fun a b => b.stamp ≤ a.stamp)

def deletedRows (book : AddressBook) (since : Int) : List ChangeRow :=
  book.deletions.filter (since < ·.stamp)

def contactsOf (book : AddressBook) (ids : List String) : List Contact :=
  ids.filterMap book.get?

def queryUpdated (book : AddressBook) (since : Int) (limit : Limit) : Option (List ChangeRow) × AddressBook :=
  (if book.available then some (book.updatedRows since limit) else none,
    { book with updatedQueries := book.updatedQueries + 1 })

def queryDeleted (book : AddressBook) (since : Int) : Option (List ChangeRow) × AddressBook :=
  (if book.available then some (book.deletedRows since) else none,
    { book with deletedQueries := book.deletedQueries + 1 })

def queryContacts (book : AddressBook) (ids : List String) : Option (List Contact) × AddressBook :=
  (if book.available then some (book.contactsOf ids) else none,
    { book with contactQueries := book.contactQueries + 1 })

end AddressBook

end ContactsIndex
