/-!
# Contacts

A contact as the address book holds it. Every list keeps the order in which the
user entered the values; a labelled value is an entry such as the work e-mail.
-/

namespace ContactsIndex

structure Labeled where
  label : String
  value : String
  deriving DecidableEq, Repr

structure Contact where
  id : String
  displayName : String
  givenName : Option String
  middleName : Option String
  familyName : Option String
  phoneticName : Option String
  nicknames : List String
  emails : List Labeled
  phones : List Labeled
  postalAddresses : List Labeled
  organizations : List String
  relations : List String
  note : Option String
  photoUri : Option String
  starred : Bool
  /-- When the address book last touched the contact, in milliseconds. -/
  lastUpdated : Int
  deriving DecidableEq, Repr

def Contact.named (id displayName : String) : Contact where
  id := id
  displayName := displayName
  givenName := none
  middleName := none
  familyName := none
  phoneticName := none
  nicknames := []
  emails := []
  phones := []
  postalAddresses := []
  organizations := []
  relations := []
  note := none
  photoUri := none
  starred := false
  lastUpdated := 0

end ContactsIndex
