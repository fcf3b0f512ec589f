import ContactsIndex.Contact
import ContactsIndex.Document.Canonical

/-!
# From a contact to its document

Labelled values are entered one after another into the contact point of their
label, which is made when the label is first met. The points are listed by
ascending label.
-/

namespace ContactsIndex

abbrev PointTable := Std.TreeMap String ContactPoint

def PointTable.enter (add : ContactPoint → String → ContactPoint) (points : PointTable) (values : List Labeled) :
    PointTable :=
  values.foldl (fun table v => table.alter v.label fun point => some (add (point.getD (.empty v.label)) v.value)) points

namespace ContactPoint

def addEmail (point : ContactPoint) (value : String) : ContactPoint :=
  { point with emails := point.emails ++ [value] }

def addPhone (point : ContactPoint) (value : String) : ContactPoint :=
  { point with phones := point.phones ++ [value] }

def addAddress (point : ContactPoint) (value : String) : ContactPoint :=
  { point with addresses := point.addresses ++ [value] }

end ContactPoint

def Contact.points (contact : Contact) : List ContactPoint :=
  let table : PointTable := ∅
  let table := table.enter ContactPoint.addEmail contact.emails
  let table := table.enter ContactPoint.addPhone contact.phones
  let table := table.enter ContactPoint.addAddress contact.postalAddresses
  table.values

def Document.ofContact (contact : Contact) (createdAt : Int) : Document :=
  Document.sealed
    { id := contact.id
      name := contact.displayName
      givenName := contact.givenName
      middleName := contact.middleName
      familyName := contact.familyName
      additionalNames := contact.nicknames ++ contact.phoneticName.toList
      contactPoints := contact.points
      affiliations := contact.organizations
      relations := contact.relations
      notes := contact.note.toList
      imageUri := contact.photoUri
      isImportant := contact.starred
      createdAt := createdAt
      fingerprint := .zero }

end ContactsIndex
